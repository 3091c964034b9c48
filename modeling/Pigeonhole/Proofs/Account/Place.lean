import Pigeonhole.Account.Basic
import Pigeonhole.Proofs.Json.Assign

/-!
# Places of an account

A place is the name of a database and the name of a container in it.  `Account.setContainer` puts a
container at a place, and the look-ups after it are those before it but at the place itself.  Every
request is an equation over such places: the creation of a database puts there what is there already
or a new one (`run_createDatabase_of_ok`), likewise the creation of a container, and an action replaces
the container that it is addressed to (`act_of_some`).
-/

namespace Pigeonhole

namespace Database

variable {d : Database} {name other : String}

theorem container?_setContainer_self (d : Database) (name : String) (c : Container) :
    (d.setContainer name c).container? name = some c :=
  lookup_assign_self _ _ _

theorem container?_setContainer_of_ne (h : other ≠ name) (c : Container) :
    (d.setContainer name c).container? other = d.container? other :=
  lookup_assign_of_ne h _ _

theorem container?_setContainer_cases {c found : Container}
    (h : (d.setContainer name c).container? other = some found) :
    found = c ∨ d.container? other = some found := by
  by_cases hname : other = name
  · subst hname
    rw [container?_setContainer_self, Option.some.injEq] at h
    exact .inl h.symm
  · rw [container?_setContainer_of_ne hname] at h
    exact .inr h

theorem setContainer_self {c : Container} (h : d.container? name = some c) :
    d.setContainer name c = d := by
  unfold setContainer
  rw [assign_of_lookup h]

theorem charge_setContainer (d : Database) (name : String) (c : Container) :
    (d.setContainer name c).charge = d.charge :=
  rfl

/-- The container that the creation of a container ends with: the one that is there, or a new
one. -/
def containerFor (d : Database) (request : ContainerRequest) : Container :=
  (d.container? request.id).getD (Container.create request d.charge)

theorem createContainer_of_error {details : Value} {e : Failure}
    (h : ContainerRequest.ofValue details = .error e) : d.createContainer details = .failed d e := by
  simp only [createContainer, h]

theorem createContainer_of_ok {details : Value} {request : ContainerRequest}
    (h : ContainerRequest.ofValue details = .ok request) :
    (d.createContainer details).result = .ok (d.containerFor request) ∧
      (d.createContainer details).state = d.setContainer request.id (d.containerFor request) := by
  unfold createContainer containerFor
  simp only [h]
  cases hc : d.container? request.id with
  | none => exact ⟨rfl, rfl⟩
  | some c => exact ⟨rfl, (setContainer_self hc).symm⟩

end Database

namespace Account

variable {a : Account} {database container other : String}

/-! ## Looking up -/

theorem database?_setDatabase_self (a : Account) (name : String) (d : Database) :
    (a.setDatabase name d).database? name = some d :=
  lookup_assign_self _ _ _

theorem database?_setDatabase_of_ne (h : other ≠ database) (d : Database) :
    (a.setDatabase database d).database? other = a.database? other :=
  lookup_assign_of_ne h _ _

theorem setDatabase_self {d : Database} (h : a.database? database = some d) :
    a.setDatabase database d = a := by
  unfold setDatabase
  rw [assign_of_lookup h]

theorem container?_eq_some {c : Container} (h : a.container? database container = some c) :
    ∃ d, a.database? database = some d ∧ d.container? container = some c :=
  Option.bind_eq_some_iff.1 h

theorem container?_of_database {d : Database} (h : a.database? database = some d)
    (container : String) : a.container? database container = d.container? container := by
  unfold container?
  rw [h, Option.bind_some]

theorem container?_setDatabase_self (a : Account) (name : String) (d : Database)
    (container : String) :
    (a.setDatabase name d).container? name container = d.container? container :=
  container?_of_database (database?_setDatabase_self a name d) container

theorem container?_setDatabase_of_ne (h : database ≠ other) (d : Database) (container : String) :
    (a.setDatabase other d).container? database container = a.container? database container := by
  unfold container?
  rw [database?_setDatabase_of_ne h]

theorem container?_setDatabase_cases {d : Database} {found : Container}
    (h : (a.setDatabase database d).container? other container = some found) :
    (other = database ∧ d.container? container = some found) ∨
      a.container? other container = some found := by
  by_cases hname : other = database
  · subst hname
    rw [container?_setDatabase_self] at h
    exact .inl ⟨rfl, h⟩
  · rw [container?_setDatabase_of_ne hname] at h
    exact .inr h

/-- The account with a container at a place whose database is there. -/
def setContainer (a : Account) (database container : String) (c : Container) : Account :=
  match a.database? database with
  | some d => a.setDatabase database (d.setContainer container c)
  | none => a

theorem setContainer_of_some {d : Database} (h : a.database? database = some d) (c : Container) :
    a.setContainer database container c =
      a.setDatabase database (d.setContainer container c) := by
  simp only [setContainer, h]

theorem container?_setContainer_cases {c found : Container} {name : String}
    (h : (a.setContainer database container c).container? other name = some found) :
    found = c ∨ a.container? other name = some found := by
  cases hd : a.database? database with
  | none =>
    simp only [setContainer, hd] at h
    exact .inr h
  | some d =>
    rw [setContainer_of_some hd] at h
    rcases container?_setDatabase_cases h with ⟨rfl, hfound⟩ | hfound
    · rw [container?_of_database hd]
      exact Database.container?_setContainer_cases hfound
    · exact .inr hfound

theorem setContainer_self {c : Container} (h : a.container? database container = some c) :
    a.setContainer database container c = a := by
  obtain ⟨d, hd, hc⟩ := container?_eq_some h
  rw [setContainer_of_some hd, Database.setContainer_self hc, setDatabase_self hd]

/-! ## Requests -/

/-- The database that the creation of a database ends with: the one that is there, or a new one. -/
def databaseFor (a : Account) (request : DatabaseRequest) : Database :=
  (a.database? request.id).getD { id := request.id, charge := a.charge }

theorem run_createDatabase_of_error {details : Value} {e : Failure}
    (h : DatabaseRequest.ofValue details = .error e) :
    a.run (.createDatabase details) = .failed a e := by
  simp only [run, createDatabase, h, Outcome.failed, Outcome.map]
  rfl

theorem run_createDatabase_of_ok {details : Value} {request : DatabaseRequest}
    (h : DatabaseRequest.ofValue details = .ok request) :
    (a.run (.createDatabase details)).result = .ok (.database (a.databaseFor request).id) ∧
      (a.run (.createDatabase details)).state = a.setDatabase request.id (a.databaseFor request) := by
  unfold run createDatabase databaseFor
  simp only [h]
  cases hd : a.database? request.id with
  | none => exact ⟨rfl, rfl⟩
  | some d => exact ⟨rfl, (setDatabase_self hd).symm⟩

theorem createContainer_of_none (h : a.database? database = none) (details : Value) :
    a.createContainer database details = { state := a, result := .ok .noDatabase } := by
  simp only [createContainer, h]

theorem createContainer_of_error {d : Database} (hd : a.database? database = some d)
    {details : Value} {e : Failure} (h : ContainerRequest.ofValue details = .error e) :
    a.createContainer database details = .failed a e := by
  simp only [createContainer, hd, Database.createContainer_of_error h, Outcome.failed, Outcome.map,
    setDatabase_self hd]
  rfl

theorem createContainer_of_ok {d : Database} (hd : a.database? database = some d) {details : Value}
    {request : ContainerRequest} (h : ContainerRequest.ofValue details = .ok request) :
    (a.createContainer database details).result = .ok (.container (d.containerFor request)) ∧
      (a.createContainer database details).state =
        a.setContainer database request.id (d.containerFor request) := by
  obtain ⟨hresult, hstate⟩ := Database.createContainer_of_ok (d := d) h
  simp only [createContainer, hd, Outcome.map, hresult, hstate, setContainer, and_true]
  rfl

theorem act_of_no_database (h : a.database? database = none) (container : String)
    (elapsed : Double) (action : Action) :
    a.act database container elapsed action = { state := a, result := .ok .noDatabase } := by
  simp only [act, h]

theorem act_of_no_container {d : Database} (hd : a.database? database = some d)
    (h : d.container? container = none) (elapsed : Double) (action : Action) :
    a.act database container elapsed action = { state := a, result := .ok .noContainer } := by
  simp only [act, hd, h]

theorem act_of_some {c : Container} (h : a.container? database container = some c)
    (elapsed : Double) (action : Action) :
    (a.act database container elapsed action).result =
        (c.run elapsed action).result.map .response ∧
      (a.act database container elapsed action).state =
        a.setContainer database container (c.run elapsed action).state := by
  obtain ⟨d, hd, hc⟩ := container?_eq_some h
  simp only [act, hd, hc, Outcome.map, setContainer, and_self]

end Account

end Pigeonhole
