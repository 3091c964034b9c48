import Pigeonhole.Error
import Pigeonhole.Json.Path
import Pigeonhole.Json.Printer

/-!
# Document stores

A `Store` holds the documents of one container.  An entry is found by its storage key, the id of the
document together with the canonical text of its partition key value, so one id may be there once
for each partition key value.  Entries keep the order in which their keys were first stored.

The text of every partition key value that is stored or asked for has to be written.  If it cannot
be, the request fails before anything is changed; only a listing of no entries never asks.
-/

namespace Pigeonhole

/-- What identifies an entry. -/
structure StorageKey where
  id : String
  /-- The canonical text of the partition key value. -/
  partition : String
deriving DecidableEq, Repr

/-- A document with its id and its partition key value. -/
structure Row where
  id : String
  partitionKey : Json
  document : Json

/-- The documents of a container, by storage key. -/
structure Store where
  /-- The field path of the partition key. -/
  field : String
  rows : List (StorageKey × Row) := []

/-- The storage key of an id and a partition key value. -/
def StorageKey.of (id : String) (partitionKey : Json) : StorageKey := ⟨id, Json.text partitionKey⟩

/-- The storage key of a row. -/
def Row.key (row : Row) : StorageKey := StorageKey.of row.id row.partitionKey

/-- How a single document is addressed: by its id and, if one is given, its partition key value. -/
structure Address where
  id : Value
  partitionKey : Option Value := none

namespace Row

/-- The row of a document, if it can be stored under a partition key field. -/
def ofValue (field : String) (item : Value) : Except Failure Row :=
  match item.members? with
  | some ms =>
    match ms.lookup "id" with
    | some (.str id) =>
      if id.isEmpty then .error .noId
      else
        match item.toJson? with
        | none => .error .notJsonItem
        | some document =>
          match document.resolve field with
          | some partitionKey =>
            if Json.isPartitionKey partitionKey then
              (Json.written partitionKey { id, partitionKey, document }).mapError .noText
            else .error (.noPartitionKey field)
          | none => .error (.noPartitionKey field)
    | _ => .error .noId
  | none => .error .notObject

end Row

namespace Store

/-- A store without documents. -/
def empty (field : String) : Store := { field }

/-- The number of documents. -/
def count (s : Store) : Nat := s.rows.length

/-- The storage keys in order. -/
def keys (s : Store) : List StorageKey := s.rows.map (·.1)

/-- The documents in order. -/
def documents (s : Store) : List Json := s.rows.map (·.2.document)

/-- The store without its documents. -/
def clear (s : Store) : Store := { s with rows := [] }

/-- The store with a row: in place of the one with its key, or at the end. -/
def put (s : Store) (row : Row) : Store := { s with rows := assign row.key row s.rows }

/-- The store without the entry of a key. -/
def erase (s : Store) (key : StorageKey) : Store :=
  { s with rows := s.rows.eraseP fun entry => entry.1 = key }

/-- The entry with an id and a partition key value. -/
def lookup? (s : Store) (id : String) (partitionKey : Json) : Option (StorageKey × Row) :=
  let key := StorageKey.of id partitionKey
  (s.rows.lookup key).map (key, ·)

/-- The first entry with an id. -/
def first? (s : Store) (id : String) : Option (StorageKey × Row) :=
  s.rows.find? fun entry => entry.2.id = id

/-- The documents whose partition key value is the same as a given one. -/
def inPartition (s : Store) (partitionKey : Json) : List Json :=
  (s.rows.filter fun entry => Json.same entry.2.partitionKey partitionKey).map (·.2.document)

/-- The partition key value of an item, if it has one. -/
def partitionKeyOf (s : Store) (item : Value) : Option Value := item.resolve s.field

/-- The entry at an address.  Only strings are ids of documents. -/
def find (s : Store) (address : Address) : Except Failure (Option (StorageKey × Row)) :=
  match Value.given address.partitionKey with
  | none =>
    match address.id with
    | .str id => .ok (s.first? id)
    | _ => .ok none
  | some v =>
    match v.written? with
    | .error fault => .error (.noText fault)
    | .ok partitionKey =>
      match address.id with
      | .str id => .ok (s.lookup? id partitionKey)
      | .arr _ => .error (.compoundId true)
      | .obj _ => .error (.compoundId false)
      | _ => .ok none

/-- Stores an item in place of the one with its storage key, or as a new one. -/
def upsert (s : Store) (item : Value) : Except Failure (Row × Store) := do
  let row ← Row.ofValue s.field item
  return (row, s.put row)

/-- The document at an address. -/
def read (s : Store) (address : Address) : Except Failure (Option Json) := do
  return (← s.find address).map (·.2.document)

/-- The canonical text of the partition key value of an address, empty if there is none. -/
def shownKey (partitionKey : Option Value) : String :=
  ((Value.given partitionKey).bind (·.text?.toOption)).getD ""

/-- Removes the document at an address. -/
def delete (s : Store) (address : Address) : Except Failure (Row × Store) := do
  match ← s.find address with
  | some (key, row) => return (row, s.erase key)
  | none => .error (.notFound address.id (shownKey address.partitionKey))

/-- The documents in order, those of one partition if a partition key value is given. -/
def list (s : Store) (scope : Option Value) : Except Failure (List Json) :=
  match Value.given scope with
  | none => .ok s.documents
  | some v =>
    match v.written? with
    | .ok partitionKey => .ok (s.inPartition partitionKey)
    | .error fault => if s.rows.isEmpty then .ok [] else .error (.noText fault)

end Store

end Pigeonhole
