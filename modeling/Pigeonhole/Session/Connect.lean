import Pigeonhole.Account.Basic
import Pigeonhole.Session.Options

/-!
# Connecting

Connecting creates a database and its containers.  All containers are created at the same time, each
by a `Creation` of its own that tries up to three times.  A try is a call, which the service may
refuse at once, and an answer later on.  A schedule says in which order the creations proceed;
`connect` lets them take turns.
-/

namespace Pigeonhole.Session

/-- How many times the creation of a container is tried. -/
def maxAttempts : Nat := 3

/-- A service that creates containers, with a state of its own. -/
structure Service (σ : Type) where
  /-- Takes a request, or refuses it at once with a reason. -/
  call : σ → Value → σ × Option String
  /-- Answers a request that was taken: with a container, or with a reason for having none. -/
  answer : σ → Value → σ × Except String Container × List Log.Record

/-- How far the creation of a container is. -/
inductive Stage where
  | fresh
  /-- A request has been taken and is not yet answered. -/
  | called
  | created (c : Container)
  | abandoned

/-- The creation of one container. -/
structure Creation where
  options : ContainerOptions
  /-- How many tries have failed. -/
  failed : Nat := 0
  stage : Stage := .fresh

/-- The logger of connecting. -/
def connectLogger : String := "localcosmos.db.connect"

namespace Creation

/-- The record of a failed try: the last one gives the reason. -/
def failureRecord (t : Creation) (reason : String) : Log.Record :=
  .plain .error connectLogger
    (if t.failed + 1 < maxAttempts then
      "Failed to create container: " ++ t.options.name ++ " (attempt " ++
        String.ofList (Text.natDigits (t.failed + 1)) ++ ")"
    else "CreateContainer: " ++ reason)

/-- The creation after one more failed try. -/
def withFailure (t : Creation) : Creation := { t with failed := t.failed + 1 }

/-- The container, if it has been created. -/
def container? (t : Creation) : Option Container :=
  match t.stage with
  | .created c => some c
  | _ => none

variable {σ : Type}

/-- Calls the service until it takes the request, as often as tries remain. -/
def begin (service : Service σ) : Nat → σ → Creation → σ × Creation × List Log.Record
  | 0, s, t => (s, { t with stage := .abandoned }, [])
  | remaining + 1, s, t =>
    match service.call s t.options.details with
    | (s, none) => (s, { t with stage := .called }, [])
    | (s, some reason) =>
      let (s, last, records) := begin service remaining s t.withFailure
      (s, last, t.failureRecord reason :: records)

/-- Goes on until it waits for an answer or is done. -/
def proceed (service : Service σ) (s : σ) (t : Creation) : σ × Creation × List Log.Record :=
  match t.stage with
  | .fresh => t.begin service maxAttempts s
  | .called =>
    match service.answer s t.options.details with
    | (s, .ok c, records) => (s, { t with stage := .created c }, records)
    | (s, .error reason, records) =>
      let (s, last, more) := t.withFailure.begin service (maxAttempts - (t.failed + 1)) s
      (s, last, records ++ t.failureRecord reason :: more)
  | .created _ | .abandoned => (s, t, [])

end Creation

/-- An open connection: the database, and the names of its containers. -/
structure Connection where
  database : String
  containers : List (String × Container)

/-- The record of an open connection. -/
def connectedRecord (database : String) (containers : Nat) : Log.Record :=
  .plain .info connectLogger ("Connected to database '" ++ database ++ "' with " ++
    String.ofList (Text.natDigits containers) ++ " containers")

/-- The creations of several containers under way. -/
structure Creations (σ : Type) where
  state : σ
  parts : List Creation
  records : List Log.Record := []

namespace Creations

variable {σ : Type}

/-- The creations of containers before any of them proceeds. -/
def start (state : σ) (containers : List ContainerOptions) : Creations σ :=
  { state, parts := containers.map fun options => { options } }

/-- Lets one of the creations proceed. -/
def proceed (service : Service σ) (all : Creations σ) (i : Nat) : Creations σ :=
  match all.parts[i]? with
  | none => all
  | some t =>
    let (state, t, records) := t.proceed service all.state
    { state, parts := all.parts.set i t, records := all.records ++ records }

/-- Lets the creations proceed in the order of a schedule. -/
def follow (service : Service σ) (all : Creations σ) (schedule : List Nat) : Creations σ :=
  schedule.foldl (proceed service) all

/-- The names of the containers that were not created. -/
def failures (all : Creations σ) : List String :=
  (all.parts.filter fun t => t.container?.isNone).map (·.options.name)

/-- The containers that were created, by name. -/
def created (all : Creations σ) : List (String × Container) :=
  assignAll (all.parts.filterMap fun t => t.container?.map (t.options.name, ·))

/-- What opening a connection to a database comes to once the creations have ended: the database is
asked for under a name, and has an id. -/
def outcome (all : Creations σ) (name id : String) : Outcome σ Connection :=
  if all.failures.isEmpty then
    { state := all.state
      result := .ok { database := id, containers := all.created }
      records := all.records ++ [connectedRecord name all.created.length] }
  else
    { state := all.state
      result := .error (.containersFailed all.failures)
      records := all.records }

end Creations

/-- The schedule in which a number of creations take turns until all are done. -/
def turns (number : Nat) : List Nat :=
  (List.replicate (maxAttempts + 1) (List.range number)).flatten

/-- Creates containers with a service. -/
def createAll {σ : Type} (service : Service σ) (state : σ) (containers : List ContainerOptions) :
    Creations σ :=
  (Creations.start state containers).follow service (turns containers.length)

/-- A database whose calls are counted and may be refused. -/
structure Backend where
  database : Database
  /-- How many calls for a container are yet to be refused. -/
  refusals : List (String × Nat) := []
  /-- The requests so far. -/
  calls : List Value := []

namespace Backend

/-- The reason of a refused call. -/
def refusal : String := "service unavailable"

/-- The name of the container in a request. -/
def requestedName (details : Value) : String :=
  match details.member? "id" with
  | some (.str name) => name
  | _ => ""

/-- Takes a request unless a refusal is due. -/
def call (b : Backend) (details : Value) : Backend × Option String :=
  let b := { b with calls := b.calls ++ [details] }
  let name := requestedName details
  match b.refusals.lookup name with
  | some (n + 1) => ({ b with refusals := assign name n b.refusals }, some refusal)
  | _ => (b, none)

/-- Answers a request from the database. -/
def answer (b : Backend) (details : Value) : Backend × Except String Container × List Log.Record :=
  let o := b.database.createContainer details
  ({ b with database := o.state }, o.result.mapError Failure.text, o.records)

/-- The database as a service. -/
def service : Service Backend := ⟨call, answer⟩

end Backend

/-- The account of a connection, with refusals that are due and the requests made. -/
structure Network where
  account : Account
  refusals : List (String × Nat) := []
  calls : List Value := []

/-- Opens a connection: creates the database and its containers where they are missing. -/
def connect (n : Network) (options : ConnectionOptions) : Outcome Network Connection :=
  let o := n.account.createDatabase (.obj [("id", .str options.name)])
  match o.result with
  | .error e => .failed n e
  | .ok database =>
    let all := createAll Backend.service { database, refusals := n.refusals, calls := n.calls }
      options.containers
    let ended := all.outcome options.name database.id
    { state :=
        { account := o.state.setDatabase database.id ended.state.database
          refusals := ended.state.refusals
          calls := ended.state.calls }
      result := ended.result
      records := o.records ++ ended.records }

end Pigeonhole.Session
