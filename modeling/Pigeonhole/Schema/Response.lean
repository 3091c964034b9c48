import Pigeonhole.Json.Printer
import Pigeonhole.Schema.Checked

/-!
# Responses

A response wraps one resource or a list of them together with the request charge and with
diagnostics: how long the request took and how many bytes the payload has.  How long it took is read
off a clock, so whatever answers a request is told by its caller.
-/

namespace Pigeonhole

/-- Diagnostics of a request. -/
structure Diagnostics where
  /-- Elapsed milliseconds. -/
  duration : Number := .int 0
  /-- Bytes of the canonical text of the payload. -/
  payloadLength : Int := 0

/-- A response with one resource, null if there is none. -/
structure ItemResponse (α : Type) where
  resource : Tree α := .null
  charge : Double := Double.one
  diagnostics : Diagnostics := {}

/-- A response with a list of resources. -/
structure FeedResponse (α : Type) where
  resources : List (Tree α) := []
  charge : Double := Double.one
  diagnostics : Diagnostics := {}

/-- The milliseconds from one point in time to another, in whole nanoseconds; none if the second is
earlier. -/
def elapsedMilliseconds (started now : Nat) : Double := Double.ofRatio false (now - started) 1000000

namespace Diagnostics

/-- The fields of diagnostics. -/
def durationField : Field := ⟨"requestDurationInMs", "request_duration_in_ms"⟩

def payloadLengthField : Field :=
  ⟨"totalResponsePayloadLengthInBytes", "total_response_payload_length_in_bytes"⟩

def statisticsField : Field := ⟨"clientSideRequestStatistics", "client_side_request_statistics"⟩

/-- Checks the members of the statistics. -/
def checkStatistics (readers : Readers) (ms : List (String × Value)) : Checked Diagnostics :=
  mk <$> durationField.optional (.int 0) (fun v => (v.asDouble readers).map .double) ms
    <*> payloadLengthField.optional 0 (Value.asInt readers) ms

/-- Checks the members of diagnostics. -/
def check (readers : Readers) (ms : List (String × Value)) : Checked Diagnostics :=
  statisticsField.optional {} (Value.asModel (checkStatistics readers)) ms

/-- Diagnostics as a value. -/
def toTree {α : Type} (short : Bool) (d : Diagnostics) : Tree α :=
  .obj [(statisticsField.shown short, .obj
    [(durationField.shown short, .num d.duration),
      (payloadLengthField.shown short, Tree.int d.payloadLength)])]

end Diagnostics

/-- The key of the request charge. -/
def chargeField : Field := ⟨"requestCharge", "request_charge"⟩

/-- A charge as responses show it, by the check of their field. -/
def chargeOf (charge : Number) : Checked Double :=
  charge.asDouble.under (.key chargeField.secondKey)

/-- The key of the diagnostics. -/
def diagnosticsField : Field := Field.plain "diagnostics"

namespace ItemResponse

/-- Checks the members of a response. -/
def check (readers : Readers) (ms : List (String × Value)) : Checked (ItemResponse Foreign) :=
  mk <$> (Field.plain "resource").optional .null Value.any ms
    <*> chargeField.optional Double.one (Value.asDouble readers) ms
    <*> diagnosticsField.optional {} (Value.asModel (Diagnostics.check readers)) ms

/-- A response as a value. -/
def toTree {α : Type} (short : Bool) (r : ItemResponse α) : Tree α :=
  .obj [("resource", r.resource), (chargeField.shown short, Tree.double r.charge),
    ("diagnostics", r.diagnostics.toTree short)]

/-- The response to a request that found a document or none, after so many milliseconds. -/
def ofJson (elapsed : Double) (resource : Json) (charge : Number) : Checked (ItemResponse Empty) :=
  (chargeOf charge).map fun charge =>
    { resource, charge
      diagnostics := { duration := .double elapsed, payloadLength := resource.payloadLength } }

end ItemResponse

namespace FeedResponse

/-- Checks the members of a response. -/
def check (readers : Readers) (ms : List (String × Value)) : Checked (FeedResponse Foreign) :=
  mk <$> (Field.plain "resources").optional [] (Value.asList Value.any) ms
    <*> chargeField.optional Double.one (Value.asDouble readers) ms
    <*> diagnosticsField.optional {} (Value.asModel (Diagnostics.check readers)) ms

/-- A response as a value. -/
def toTree {α : Type} (short : Bool) (r : FeedResponse α) : Tree α :=
  .obj [("resources", .arr r.resources), (chargeField.shown short, Tree.double r.charge),
    ("diagnostics", r.diagnostics.toTree short)]

/-- The response to a request that found these resources, after so many milliseconds. -/
def ofJson (elapsed : Double) (resources : List Json) (charge : Number) :
    Checked (FeedResponse Empty) :=
  (chargeOf charge).map fun charge =>
    { resources, charge
      diagnostics :=
        { duration := .double elapsed, payloadLength := Json.payloadLength (.arr resources) } }

/-- The response with the time that it took. -/
def timed {α : Type} (duration : Number) (r : FeedResponse α) : FeedResponse α :=
  { r with diagnostics := { r.diagnostics with duration } }

end FeedResponse

/-- The members of a response around a payload that need not be JSON, for a check to read, if the
payload can be written. -/
def responseMembers? (key : String) (payload charge : Value) :
    Except TextFault (List (String × Value)) :=
  (Value.payloadLength? payload).map fun n =>
    [(key, payload), (chargeField.secondKey, charge),
      ("diagnostics", ({ payloadLength := n } : Diagnostics).toTree true)]

end Pigeonhole
