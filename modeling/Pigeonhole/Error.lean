import Pigeonhole.Json.Printer
import Pigeonhole.Query.Error
import Pigeonhole.Schema.Mapping

/-!
# Failures

`Failure` is everything that can go wrong in an operation on an account, by its cause, with the
message and the status that a caller is shown.
-/

namespace Pigeonhole

/-- What a malformed request was to be. -/
inductive Subject where
  | container
  | database
  | querySpec
  | feedOptions
deriving DecidableEq, Repr

/-- The beginning of the message of a malformed request. -/
def Subject.complaint : Subject → String
  | container => "Invalid ContainerRequest"
  | database => "Invalid DatabaseRequest"
  | querySpec => "Invalid query spec"
  | feedOptions => "Invalid feed options"

/-- What is wrong with a malformed request. -/
inductive Flaw where
  | mapping (e : MappingError)
  | issues (list : List Issue)
deriving DecidableEq, Repr

/-- Why an operation failed. -/
inductive Failure where
  /-- The document is no object. -/
  | notObject
  /-- The document has no id, or an empty one. -/
  | noId
  /-- The document holds values that are not JSON. -/
  | notJsonItem
  /-- The document has no partition key value at the field. -/
  | noPartitionKey (field : String)
  /-- There is no document with the id and, if one was given, the partition key value. -/
  | notFound (id : Value) (partitionKey : String)
  | malformed (subject : Subject) (flaw : Flaw)
  | query (e : QueryError)
  /-- Containers that could not be created. -/
  | containersFailed (names : List String)
  /-- Values that a model does not admit. -/
  | invalid (issues : List Issue)
  /-- A value whose text is needed and cannot be written. -/
  | noText (fault : TextFault)
  /-- A list or a mapping as an id. -/
  | compoundId (list : Bool)

/-- The message that callers are shown, if the failure is one of the service. -/
def Failure.message? : Failure → Option String
  | notObject => some "Upsert requires a JSON object"
  | noId => some "Upsert requires item.id"
  | notJsonItem => some "Upsert requires a JSON-compatible item"
  | noPartitionKey field =>
    some ("Upsert requires partition key value at path \"" ++ field ++ "\"")
  | notFound .. => some "Item not found"
  | malformed subject _ => some subject.complaint
  | query (.malformedLiteral _) | query (.longInteger _) | query .unwritable => none
  | query e => some e.message
  | containersFailed names =>
    some ("Failed to initialize containers: " ++ String.intercalate ", " names)
  | invalid _ | noText _ | compoundId _ => none

/-- The text of a failure in records. -/
def Failure.text : Failure → String
  | query e => e.message
  | invalid _ => "Invalid values"
  | noText fault => fault.message
  | compoundId list => if list then "unhashable type: 'list'" else "unhashable type: 'dict'"
  | e => e.message?.getD ""

/-- The code of a failure of the service. -/
def Failure.code : Failure → String
  | notFound .. => "NotFound"
  | containersFailed _ => "ServiceUnavailable"
  | _ => "BadRequest"

/-- The status of a failure, where there is one. -/
def Failure.status? : Failure → Option Nat
  | notFound .. => some 404
  | _ => none

end Pigeonhole
