import Pigeonhole.Error
import Pigeonhole.Schema.Request

/-!
# Reading requests

Requests come as values.  A request that is no mapping, or a mapping that its model does not admit,
is malformed, and the failure keeps what is wrong with it.
-/

namespace Pigeonhole

/-- Reads a request of some subject with the check of its model. -/
def readRequest {α : Type} (subject : Subject) (check : List (String × Value) → Checked α)
    (details : Value) : Except Failure α :=
  match details.toMembers with
  | .error e => .error (.malformed subject (.mapping e))
  | .ok ms =>
    match check ms with
    | .ok request => .ok request
    | .issues list => .error (.malformed subject (.issues list))

/-- Reads a request for a database. -/
def DatabaseRequest.ofValue (details : Value) : Except Failure DatabaseRequest :=
  readRequest .database DatabaseRequest.check details

/-- Reads a request for a container. -/
def ContainerRequest.ofValue (details : Value) : Except Failure ContainerRequest :=
  readRequest .container ContainerRequest.check details

/-- Reads feed options; null stands for no options. -/
def FeedOptions.ofValue (options : Value) : Except Failure FeedOptions :=
  match options with
  | .null => .ok {}
  | _ => readRequest .feedOptions FeedOptions.check options

/-- Reads a query; a string is the query text itself. -/
def Query.Spec.ofValue (query : Value) : Except Failure Query.Spec :=
  match query with
  | .str text => .ok { text }
  | _ => readRequest .querySpec Query.Spec.check query

end Pigeonhole
