import Pigeonhole.Account.Container

/-!
# Accounts

An account has databases, and a database has containers, both in order of creation.  Creating what
exists already returns it as it is: the first definition of a name holds.
-/

namespace Pigeonhole

/-- A database. -/
structure Database where
  id : String
  /-- The request charge of containers created here. -/
  charge : Number
  containers : List (String × Container) := []

/-- An account. -/
structure Account where
  /-- The request charge of databases created here. -/
  charge : Number := .double Double.one
  databases : List (String × Database) := []

/-- A request to an account. -/
inductive Operation where
  | createDatabase (details : Value)
  | createContainer (database : String) (details : Value)
  /-- A request to the documents of a container, and how many milliseconds it takes. -/
  | act (database container : String) (elapsed : Double) (action : Action)

/-- What an account answers. -/
inductive Reply where
  | database (id : String)
  | container (c : Container)
  | response (r : Response)
  | noDatabase
  | noContainer

namespace Database

/-- The container with a name. -/
def container? (d : Database) (name : String) : Option Container := d.containers.lookup name

/-- The names of the containers. -/
def containerIds (d : Database) : List String := d.containers.map (·.1)

/-- The database with the container of a name set. -/
def setContainer (d : Database) (name : String) (c : Container) : Database :=
  { d with containers := assign name c d.containers }

/-- The record of a new container. -/
def createdRecord (d : Database) (c : Container) : Log.Record :=
  .plain .info clientLogger ("Created container '" ++ c.id ++ "' in database '" ++ d.id ++
    "' (partition key: " ++ c.field ++ ")")

/-- The container that a request names, created if it is not there. -/
def createContainer (d : Database) (details : Value) : Outcome Database Container :=
  match ContainerRequest.ofValue details with
  | .error e => .failed d e
  | .ok request =>
    match d.container? request.id with
    | some c => { state := d, result := .ok c }
    | none =>
      let c := Container.create request d.charge
      { state := d.setContainer request.id c, result := .ok c, records := [d.createdRecord c] }

end Database

namespace Account

/-- The database with a name. -/
def database? (a : Account) (name : String) : Option Database := a.databases.lookup name

/-- The names of the databases. -/
def databaseIds (a : Account) : List String := a.databases.map (·.1)

/-- The account with the database of a name set. -/
def setDatabase (a : Account) (name : String) (d : Database) : Account :=
  { a with databases := assign name d a.databases }

/-- The container at a place. -/
def container? (a : Account) (database container : String) : Option Container :=
  (a.database? database).bind (·.container? container)

/-- The database that a request names, created if it is not there. -/
def createDatabase (a : Account) (details : Value) : Outcome Account Database :=
  match DatabaseRequest.ofValue details with
  | .error e => .failed a e
  | .ok request =>
    match a.database? request.id with
    | some d => { state := a, result := .ok d }
    | none =>
      let d : Database := { id := request.id, charge := a.charge }
      { state := a.setDatabase request.id d
        result := .ok d
        records := [.plain .info clientLogger ("Created database '" ++ d.id ++ "'")] }

/-- The container that a request names, created in a database if it is not there. -/
def createContainer (a : Account) (database : String) (details : Value) : Outcome Account Reply :=
  match a.database? database with
  | none => { state := a, result := .ok .noDatabase }
  | some d => (d.createContainer details).map (a.setDatabase database) .container

/-- Answers a request to the documents of a container. -/
def act (a : Account) (database container : String) (elapsed : Double) (action : Action) :
    Outcome Account Reply :=
  match a.database? database with
  | none => { state := a, result := .ok .noDatabase }
  | some d =>
    match d.container? container with
    | none => { state := a, result := .ok .noContainer }
    | some c =>
      (c.run elapsed action).map (fun c => a.setDatabase database (d.setContainer container c))
        .response

/-- What is answered as soon as a request is made, without a turn of its own: that its place is not
there, or that its options cannot be read. -/
def refusal? (a : Account) : Operation → Option (Except Failure Reply)
  | .createDatabase _ => none
  | .createContainer database _ =>
    if (a.database? database).isSome then none else some (.ok .noDatabase)
  | .act database container _ action =>
    match a.database? database with
    | none => some (.ok .noDatabase)
    | some d =>
      if (d.container? container).isNone then some (.ok .noContainer)
      else
        match FeedOptions.ofValue (action.options?.getD .null) with
        | .ok _ => none
        | .error e => some (.error e)

/-- Answers a request. -/
def run (a : Account) : Operation → Outcome Account Reply
  | .createDatabase details => (a.createDatabase details).map (fun a => a) fun d => .database d.id
  | .createContainer database details => a.createContainer database details
  | .act database container elapsed action => a.act database container elapsed action

/-- Answers requests one after the other. -/
def runAll (a : Account) : List Operation → Account × List (Except Failure Reply)
  | [] => (a, [])
  | op :: rest =>
    let o := a.run op
    let (final, results) := o.state.runAll rest
    (final, o.result :: results)

end Account

end Pigeonhole
