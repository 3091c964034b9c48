import Pigeonhole.Account.Basic

/-!
# Queries against seed documents

`runQuery` fills a fresh container with documents and runs one query against it.  A document that
the container does not take ends the run before the query is looked at.
-/

namespace Pigeonhole.Cli

/-- The database of a run. -/
def runDatabase : String := "cli"

/-- The container of a run. -/
def runContainer : String := "seed"

/-- The request for the container of a run. -/
def containerDetails (path : String) : Value :=
  .obj [("id", .str runContainer), ("partitionKey", .obj [("paths", .arr [.str path])])]

/-- An account with the empty container of a run. -/
def prepare (path : String) (charge : Number) : Outcome Account Reply :=
  (Account.run { charge } (.createDatabase (.obj [("id", .str runDatabase)]))).andThen fun a _ =>
    a.run (.createContainer runDatabase (containerDetails path))

/-- A request to the documents of the container of a run. -/
def inContainer (elapsed : Double) (action : Action) : Operation :=
  .act runDatabase runContainer elapsed action

/-- Puts documents into the container of a run, up to the first that is not taken.  The responses
are dropped, so it does not matter what time they tell. -/
def seed (o : Outcome Account Reply) (documents : List Value) : Outcome Account Reply :=
  documents.foldl
    (fun o document => o.andThen fun a _ =>
      a.run (inContainer (Double.zero false) (.upsert document))) o

/-- The options of a query for a partition key value, if one is given. -/
def queryOptions : Option Value → Value
  | some key => (FeedOptions.mk (some key)).toValue false
  | none => .null

/-- Runs a query against documents, within one partition if a key is given; the query takes so many
milliseconds. -/
def runQuery (elapsed : Double) (documents : List Value) (spec : Query.Spec) (path : String)
    (partitionKey : Option Value) (charge : Number) : Outcome Account Reply :=
  (seed (prepare path charge) documents).andThen fun a _ =>
    a.run (inContainer elapsed (.query spec.toValue (queryOptions (Value.given partitionKey))))

/-- The response to a query among replies. -/
def responseOf? : Reply → Option (FeedResponse Empty)
  | .response (.feed r) => some r
  | _ => none

end Pigeonhole.Cli
