import Pigeonhole.Proofs.Account.Isolation
import Pigeonhole.Proofs.Schema.Fields
import Pigeonhole.Proofs.Session.Events

/-!
# The first definition holds

`createdDatabases` and `createdContainers` are what the successful creations of a run asked for, in
the order of the run.  The databases and containers of an account are those of its run in the order
of their first, and every container has the definition that the first creation for its place asked
for (`Recorded`).  So nothing that is asked for later changes it (`first_definition_holds`).
-/

namespace Pigeonhole

/-- A container has the definition that a request asks for. -/
structure Container.DefinedBy (c : Container) (request : ContainerRequest) (charge : Number) :
    Prop where
  id : c.id = request.id
  partitionKey : c.partitionKey = request.partitionKey
  indexingPolicy : c.indexingPolicy = request.indexingPolicy
  charge : c.charge = charge
  /-- The store looks up the first path. -/
  field : ∃ path rest, request.partitionKey.paths = path :: rest ∧
    c.store.field = partitionKeyField path

theorem Container.DefinedBy.withStore {c : Container} {request : ContainerRequest}
    {charge : Number} (h : c.DefinedBy request charge) {store : Store}
    (hfield : store.field = c.store.field) : (c.withStore store).DefinedBy request charge where
  id := h.id
  partitionKey := h.partitionKey
  indexingPolicy := h.indexingPolicy
  charge := h.charge
  field := by
    obtain ⟨path, rest, hpaths, hstore⟩ := h.field
    exact ⟨path, rest, hpaths, hfield.trans hstore⟩

/-- Containers with one definition differ in their documents only. -/
theorem Container.DefinedBy.eq_withStore {c other : Container} {request : ContainerRequest}
    {charge : Number} (h : c.DefinedBy request charge) (hother : other.DefinedBy request charge) :
    other = c.withStore other.store ∧ other.store.field = c.store.field := by
  obtain ⟨path, rest, hpaths, hfield⟩ := h.field
  obtain ⟨path', rest', hpaths', hfield'⟩ := hother.field
  have hsame : path' = path := (List.cons.inj (hpaths'.symm.trans hpaths)).1
  refine ⟨?_, by rw [hfield, hfield', hsame]⟩
  cases c
  cases other
  simp only [Container.withStore, Container.mk.injEq, and_true]
  exact ⟨hother.id.trans h.id.symm, hother.partitionKey.trans h.partitionKey.symm,
    hother.indexingPolicy.trans h.indexingPolicy.symm, hother.charge.trans h.charge.symm⟩

namespace ContainerRequest

variable {details : Value} {request : ContainerRequest}

/-- A request for a container names a path. -/
theorem paths_ne_nil (h : ofValue details = .ok request) : request.partitionKey.paths ≠ [] := by
  unfold ofValue readRequest at h
  cases hms : details.toMembers with
  | error e =>
    simp only [hms] at h
    contradiction
  | ok ms =>
    cases hcheck : check ms with
    | issues list =>
      simp only [hms, hcheck] at h
      contradiction
    | ok r =>
      simp only [hms, hcheck, Except.ok.injEq] at h
      subst h
      simp only [check, Checked.seq_eq_ok, Checked.map_eq_ok] at hcheck
      obtain ⟨-, -, ⟨-, key, ⟨-, -, rfl⟩, hkey, rfl⟩, -, rfl⟩ := hcheck
      obtain ⟨v, hv⟩ := Field.exists_of_required hkey
      rw [Value.asModel] at hv
      split at hv
      · simp only [PartitionKeyDefinition.check, Checked.seq_eq_ok, Checked.map_eq_ok] at hv
        obtain ⟨-, -, ⟨paths, hpaths, rfl⟩, -, rfl⟩ := hv
        obtain ⟨w, hw⟩ := Field.exists_of_required hpaths
        simpa using (Checked.rule_eq_ok.1 hw).2
      · contradiction

theorem definedBy_create (h : ofValue details = .ok request) (charge : Number) :
    (Container.create request charge).DefinedBy request charge where
  id := rfl
  partitionKey := rfl
  indexingPolicy := rfl
  charge := rfl
  field := by
    obtain ⟨path, rest, hpaths⟩ := List.exists_cons_of_ne_nil (paths_ne_nil h)
    refine ⟨path, rest, hpaths, ?_⟩
    show partitionKeyField (request.partitionKey.paths.headD "") = _
    rw [hpaths, List.headD_cons]

end ContainerRequest

/-! ## What a run has created -/

/-- The name of the database that a request has created or found. -/
def createdDatabase? : Operation → Except Failure Reply → Option String
  | .createDatabase details, .ok _ => (DatabaseRequest.ofValue details).toOption.map (·.id)
  | _, _ => none

/-- What a request asked for that has created or found a container in a database. -/
def createdContainer? (database : String) :
    Operation → Except Failure Reply → Option ContainerRequest
  | .createContainer name details, .ok (.container _) =>
    if name = database then (ContainerRequest.ofValue details).toOption else none
  | _, _ => none

section Created

variable {κ : Type}

/-- The names of the databases that were created or found in a run, in its order. -/
def createdDatabases (log : List ((κ × Operation) × Except Failure Reply)) : List String :=
  log.filterMap fun r => createdDatabase? r.1.2 r.2

/-- The requests that have created or found a container of a database in a run, in its order. -/
def createdContainers (database : String) (log : List ((κ × Operation) × Except Failure Reply)) :
    List ContainerRequest :=
  log.filterMap fun r => createdContainer? database r.1.2 r.2

variable (log : List ((κ × Operation) × Except Failure Reply)) (s : κ × Operation)
  (result : Except Failure Reply)

theorem createdDatabases_concat : createdDatabases (log ++ [(s, result)]) =
    createdDatabases log ++ (createdDatabase? s.2 result).toList := by
  simp only [createdDatabases, List.filterMap_append, List.filterMap_cons, List.filterMap_nil]
  cases createdDatabase? s.2 result <;> rfl

theorem createdContainers_concat (database : String) :
    createdContainers database (log ++ [(s, result)]) =
      createdContainers database log ++ (createdContainer? database s.2 result).toList := by
  simp only [createdContainers, List.filterMap_append, List.filterMap_cons, List.filterMap_nil]
  cases createdContainer? database s.2 result <;> rfl

end Created

namespace Account

variable {a : Account} {database container : String} {d : Database}

/-! ## Names -/

/-- The names of the containers of a database; there are none if it is not there. -/
def containerIds (a : Account) (database : String) : List String :=
  ((a.database? database).map (·.containerIds)).getD []

theorem containerIds_of_some (h : a.database? database = some d) :
    a.containerIds database = d.containerIds := by
  rw [containerIds, h, Option.map_some, Option.getD_some]

theorem mem_containerIds_of_container? {c : Container}
    (h : a.container? database container = some c) : container ∈ a.containerIds database := by
  obtain ⟨d, hd, hc⟩ := container?_eq_some h
  rw [containerIds_of_some hd, Database.containerIds, ← isSome_lookup_iff]
  exact Option.isSome_of_eq_some hc

theorem databaseIds_setDatabase (a : Account) (name : String) (d : Database) :
    (a.setDatabase name d).databaseIds =
      if name ∈ a.databaseIds then a.databaseIds else a.databaseIds ++ [name] :=
  map_fst_assign name d a.databases

theorem databaseIds_setContainer (a : Account) (database container : String) (c : Container) :
    (a.setContainer database container c).databaseIds = a.databaseIds := by
  cases hd : a.database? database with
  | none => simp only [setContainer, hd]
  | some d =>
    have hmem : database ∈ a.databaseIds :=
      isSome_lookup_iff.1 (Option.isSome_of_eq_some hd)
    rw [setContainer_of_some hd, databaseIds_setDatabase, if_pos hmem]

theorem containerIds_setContainer (h : a.database? database = some d) (container : String)
    (c : Container) (name : String) :
    (a.setContainer database container c).containerIds name =
      if name = database ∧ container ∉ a.containerIds name then a.containerIds name ++ [container]
      else a.containerIds name := by
  rw [setContainer_of_some h]
  by_cases hname : name = database
  · subst hname
    rw [containerIds_of_some (database?_setDatabase_self _ _ _), containerIds_of_some h]
    show (assign container c d.containers).map (·.1) = _
    rw [map_fst_assign, ← Database.containerIds]
    by_cases hmem : container ∈ d.containerIds
    · rw [if_pos hmem, if_neg fun hn => hn.2 hmem]
    · rw [if_neg hmem, if_pos ⟨rfl, hmem⟩]
  · rw [if_neg fun hn => hname hn.1]
    unfold containerIds
    rw [database?_setDatabase_of_ne hname]

theorem container?_setContainer (h : a.database? database = some d) (container : String)
    (c : Container) (name other : String) :
    (a.setContainer database container c).container? name other =
      if name = database ∧ other = container then some c else a.container? name other := by
  split
  case isTrue hplace =>
    obtain ⟨rfl, rfl⟩ := hplace
    rw [setContainer_of_some h, container?_setDatabase_self, Database.container?_setContainer_self]
  case isFalse hplace =>
    refine container?_of_view (view_setContainer_of_ne (fun hn => hplace ?_) c)
    exact ⟨hn.1.symm, hn.2.symm⟩

/-! ## Runs -/

section Recorded

variable {κ : Type} {charge : Number} {log : List ((κ × Operation) × Except Failure Reply)}

/-- An account holds what its run has created: every name once, in the order of the first request for
it, and every container with the definition that the first request asked for. -/
structure Recorded (a : Account) (charge : Number)
    (log : List ((κ × Operation) × Except Failure Reply)) : Prop where
  databases : a.databaseIds = (createdDatabases log).eraseDups
  containers : ∀ database,
    a.containerIds database = ((createdContainers database log).map (·.id)).eraseDups
  definition : ∀ {database id c}, a.container? database id = some c →
    ∃ request, (createdContainers database log).find? (·.id = id) = some request ∧
      c.DefinedBy request charge

/-- The request for a name that is not there is the first one for it. -/
theorem Recorded.find?_concat (h : a.Recorded charge log) (request : ContainerRequest)
    (hnew : request.id ∉ a.containerIds database) :
    (createdContainers database log ++ [request]).find? (·.id = request.id) = some request := by
  rw [h.containers, List.mem_eraseDups, List.mem_map, not_exists] at hnew
  have hnone : (createdContainers database log).find? (·.id = request.id) = none :=
    List.find?_eq_none.2 fun other hother => by simpa using fun hid => hnew other ⟨hother, hid⟩
  simp [List.find?_append, hnone]

variable {s : κ × Operation} {result : Except Failure Reply} {b : Account}

/-- A request that has created or found nothing, and has changed no more than documents. -/
theorem Recorded.of_none (h : a.Recorded charge log) (hdatabase : createdDatabase? s.2 result = none)
    (hcontainer : ∀ database, createdContainer? database s.2 result = none)
    (hdatabases : b.databaseIds = a.databaseIds)
    (hcontainers : ∀ database, b.containerIds database = a.containerIds database)
    (hdefinition : ∀ {database id c}, b.container? database id = some c →
      ∃ before store, a.container? database id = some before ∧ c = before.withStore store ∧
        store.field = before.store.field) :
    b.Recorded charge (log ++ [(s, result)]) where
  databases := by
    rw [createdDatabases_concat, hdatabase, Option.toList_none, List.append_nil, hdatabases,
      h.databases]
  containers database := by
    rw [createdContainers_concat, hcontainer, Option.toList_none, List.append_nil, hcontainers,
      h.containers]
  definition {database id c} hc := by
    rw [createdContainers_concat, hcontainer, Option.toList_none, List.append_nil]
    obtain ⟨before, store, hbefore, rfl, hfield⟩ := hdefinition hc
    obtain ⟨request, hfirst, hdefined⟩ := h.definition hbefore
    exact ⟨request, hfirst, hdefined.withStore hfield⟩

/-- A request that leaves the account as it is. -/
theorem Recorded.of_unchanged (h : a.Recorded charge log)
    (hdatabase : createdDatabase? s.2 result = none)
    (hcontainer : ∀ database, createdContainer? database s.2 result = none) :
    a.Recorded charge (log ++ [(s, result)]) :=
  h.of_none hdatabase hcontainer rfl (fun _ => rfl) fun {_ _ c} hc => ⟨c, c.store, hc, rfl, rfl⟩

/-- A database that is created or found. -/
theorem Recorded.setDatabase (h : a.Recorded charge log) (request : DatabaseRequest)
    (hdatabase : createdDatabase? s.2 result = some request.id)
    (hcontainer : ∀ database, createdContainer? database s.2 result = none) :
    (a.setDatabase request.id (a.databaseFor request)).Recorded charge (log ++ [(s, result)]) := by
  -- the database shows the same containers as before
  have hids : ∀ name, (a.setDatabase request.id (a.databaseFor request)).containerIds name =
      a.containerIds name := by
    intro name
    unfold containerIds databaseFor
    by_cases hname : name = request.id
    · subst hname
      rw [database?_setDatabase_self]
      cases a.database? request.id <;> rfl
    · rw [database?_setDatabase_of_ne hname]
  have hplace : ∀ name id, (a.setDatabase request.id (a.databaseFor request)).container? name id =
      a.container? name id := by
    intro name id
    unfold databaseFor
    by_cases hname : name = request.id
    · subst hname
      rw [container?_setDatabase_self, container?]
      cases a.database? request.id <;> rfl
    · rw [container?_setDatabase_of_ne hname]
  refine ⟨?_, fun database => ?_, fun {database id c} hc => ?_⟩
  · rw [createdDatabases_concat, hdatabase, Option.toList_some, databaseIds_setDatabase,
      eraseDups_concat, h.databases]
    simp only [List.mem_eraseDups]
  · rw [createdContainers_concat, hcontainer, Option.toList_none, List.append_nil, hids,
      h.containers]
  · rw [createdContainers_concat, hcontainer, Option.toList_none, List.append_nil]
    exact h.definition (hplace database id ▸ hc)

/-- The container that is created or found is the one that the first request for its id defines. -/
theorem Recorded.first_containerFor (h : a.Recorded charge log) (hd : a.database? database = some d)
    (hcharge : d.charge = charge) {details : Value} {request : ContainerRequest}
    (hrequest : ContainerRequest.ofValue details = .ok request) :
    ∃ first, (createdContainers database log ++ [request]).find? (·.id = request.id) = some first ∧
      (d.containerFor request).DefinedBy first charge := by
  cases hbefore : d.container? request.id with
  | some before =>
    obtain ⟨first, hfirst, hdefined⟩ :=
      h.definition (container?_of_database hd request.id ▸ hbefore)
    refine ⟨first, by rw [List.find?_append, hfirst, Option.some_or], ?_⟩
    rwa [Database.containerFor, hbefore, Option.getD_some]
  | none =>
    have hnew : request.id ∉ a.containerIds database := by
      rw [containerIds_of_some hd, Database.containerIds, ← isSome_lookup_iff,
        ← Database.container?, hbefore]
      decide
    refine ⟨request, h.find?_concat request hnew, ?_⟩
    rw [Database.containerFor, hbefore, Option.getD_none, hcharge]
    exact request.definedBy_create hrequest charge

/-- A container that is created or found. -/
theorem Recorded.setContainer (h : a.Recorded charge log) (hd : a.database? database = some d)
    (hcharge : d.charge = charge) {details : Value} {request : ContainerRequest}
    (hrequest : ContainerRequest.ofValue details = .ok request)
    (hdatabase : createdDatabase? s.2 result = none)
    (hcontainer : ∀ name, createdContainer? name s.2 result =
      if database = name then some request else none) :
    (a.setContainer database request.id (d.containerFor request)).Recorded charge
      (log ++ [(s, result)]) := by
  refine ⟨?_, fun name => ?_, fun {name id c} hc => ?_⟩
  · rw [createdDatabases_concat, hdatabase, Option.toList_none, List.append_nil,
      databaseIds_setContainer, h.databases]
  · rw [createdContainers_concat, hcontainer, containerIds_setContainer hd]
    by_cases hname : database = name
    · subst hname
      rw [if_pos rfl, Option.toList_some, List.map_append, List.map_singleton, eraseDups_concat,
        h.containers]
      simp only [true_and, List.mem_eraseDups]
      split <;> simp_all
    · rw [if_neg fun hn => hname hn.1.symm, if_neg hname, Option.toList_none, List.append_nil,
        h.containers]
  · rw [createdContainers_concat, hcontainer]
    rw [container?_setContainer hd] at hc
    by_cases hplace : name = database ∧ id = request.id
    · obtain ⟨rfl, rfl⟩ := hplace
      rw [if_pos ⟨rfl, rfl⟩, Option.some.injEq] at hc
      rw [if_pos rfl, Option.toList_some, ← hc]
      exact h.first_containerFor hd hcharge hrequest
    · rw [if_neg hplace] at hc
      obtain ⟨first, hfirst, hdefined⟩ := h.definition hc
      exact ⟨first, by rw [List.find?_append, hfirst, Option.some_or], hdefined⟩

theorem state_act_of_none (h : a.container? database container = none)
    (elapsed : Double) (action : Action) :
    (a.act database container elapsed action).state = a := by
  rw [state_act, written?, h, Option.bind_none, Option.map_none, Option.getD_none]

theorem exists_withStore_of_act {elapsed : Double} {action : Action} {name id : String}
    {c : Container} (h : (a.act database container elapsed action).state.container? name id = some c) :
    ∃ before store, a.container? name id = some before ∧ c = before.withStore store ∧
      store.field = before.store.field := by
  cases hbefore : a.container? database container with
  | none =>
    rw [state_act_of_none hbefore] at h
    exact ⟨c, c.store, h, rfl, rfl⟩
  | some before =>
    obtain ⟨d, hd, -⟩ := container?_eq_some hbefore
    rw [(act_of_some hbefore elapsed action).2, container?_setContainer hd] at h
    split at h
    next hplace =>
      obtain ⟨rfl, rfl⟩ := hplace
      rw [Container.state_run, Option.some.injEq] at h
      exact ⟨before, _, hbefore, h.symm, Store.field_step _ _⟩
    next => exact ⟨c, c.store, h, rfl, rfl⟩

theorem databaseIds_act (a : Account) (database container : String) (elapsed : Double)
    (action : Action) :
    (a.act database container elapsed action).state.databaseIds = a.databaseIds := by
  cases hbefore : a.container? database container with
  | none => rw [state_act_of_none hbefore]
  | some before => rw [(act_of_some hbefore elapsed action).2, databaseIds_setContainer]

theorem containerIds_act (a : Account) (database container : String) (elapsed : Double)
    (action : Action) (name : String) :
    (a.act database container elapsed action).state.containerIds name = a.containerIds name := by
  cases hbefore : a.container? database container with
  | none => rw [state_act_of_none hbefore]
  | some before =>
    obtain ⟨d, hd, -⟩ := container?_eq_some hbefore
    rw [(act_of_some hbefore elapsed action).2, containerIds_setContainer hd, if_neg]
    rintro ⟨rfl, hmem⟩
    exact hmem (mem_containerIds_of_container? hbefore)

/-- Every request keeps the account to what its run has created. -/
theorem Recorded.run (h : a.Recorded charge log) (hcharged : a.Charged) (hcharge : a.charge = charge)
    (s : κ × Operation) :
    (a.run s.2).state.Recorded charge (log ++ [(s, (a.run s.2).result)]) := by
  obtain ⟨client, op⟩ := s
  cases op with
  | createDatabase details =>
    cases hrequest : DatabaseRequest.ofValue details with
    | error e =>
      rw [run_createDatabase_of_error hrequest]
      exact h.of_unchanged rfl fun _ => rfl
    | ok request =>
      obtain ⟨hresult, hstate⟩ := run_createDatabase_of_ok (a := a) hrequest
      rw [hstate, hresult]
      refine h.setDatabase request ?_ fun _ => rfl
      simp only [createdDatabase?, hrequest, Except.toOption, Option.map_some]
  | createContainer database details =>
    simp only [Account.run]
    cases hd : a.database? database with
    | none =>
      rw [createContainer_of_none hd]
      exact h.of_unchanged rfl fun _ => rfl
    | some d =>
      cases hrequest : ContainerRequest.ofValue details with
      | error e =>
        rw [createContainer_of_error hd hrequest]
        exact h.of_unchanged rfl fun _ => rfl
      | ok request =>
        obtain ⟨hresult, hstate⟩ := createContainer_of_ok hd hrequest
        rw [hstate, hresult]
        refine h.setContainer hd ((hcharged.database hd).trans hcharge) hrequest rfl fun name => ?_
        simp only [createdContainer?, hrequest, Except.toOption]
  | act database container elapsed action =>
    exact h.of_none rfl (fun _ => rfl) (databaseIds_act _ _ _ _ _) (containerIds_act _ _ _ _ _)
      exists_withStore_of_act

theorem Recorded.after (h : a.Recorded charge log) (hcharged : a.Charged)
    (hcharge : a.charge = charge) (sent : List (κ × Operation)) :
    (a.after sent).Recorded charge (log ++ a.transcript sent) := by
  induction sent generalizing a log with
  | nil => rwa [show a.transcript ([] : List (κ × Operation)) = [] from rfl, List.append_nil]
  | cons s sent ih =>
    have hrest := ih (h.run hcharged hcharge s) (hcharged.run s.2) ((a.charge_run s.2).trans hcharge)
    rwa [List.append_assoc, List.singleton_append] at hrest

theorem recorded_new (charge : Number) :
    Recorded { charge } charge ([] : List ((κ × Operation) × Except Failure Reply)) where
  databases := rfl
  containers _ := rfl
  definition h := nomatch h

/-- A container is kept with its definition by all requests that follow. -/
theorem Recorded.exists_withStore (h : a.Recorded charge log) (hcharged : a.Charged)
    (hcharge : a.charge = charge) {c : Container} (hc : a.container? database container = some c)
    (more : List (κ × Operation)) :
    ∃ store, (a.after more).container? database container = some (c.withStore store) ∧
      store.field = c.store.field := by
  have hextends : a.Extends (a.after more) := extends_runAll a _
  have hthere : ((a.after more).container? database container).isSome :=
    hextends.container (Option.isSome_of_eq_some hc)
  obtain ⟨later, hlater⟩ := Option.isSome_iff_exists.1 hthere
  obtain ⟨request, hfirst, hdefined⟩ := h.definition hc
  obtain ⟨request', hfirst', hdefined'⟩ := (h.after hcharged hcharge more).definition hlater
  -- the first request for the place is the first one of the longer run as well
  rw [createdContainers, List.filterMap_append, List.find?_append, ← createdContainers, hfirst,
    Option.some_or, Option.some.injEq] at hfirst'
  subst hfirst'
  obtain ⟨hsame, hfield⟩ := hdefined.eq_withStore hdefined'
  exact ⟨later.store, hsame ▸ hlater, hfield⟩

/-- The databases of an account are those that the run has created, each once and in the order of the
first request for it, and so are the containers of each database.  A container has the definition that
the first request for it asked for, and keeps it; every further request for it that is well-formed is
answered with the container as it is. -/
theorem first_definition_holds (charge : Number) (sent : List (κ × Operation)) :
    let a := Account.after { charge } sent
    let log := Account.transcript { charge } sent
    a.databaseIds = (createdDatabases log).eraseDups ∧
      (∀ database,
        a.containerIds database = ((createdContainers database log).map (·.id)).eraseDups) ∧
      ∀ database id c, a.container? database id = some c →
        (∃ request, (createdContainers database log).find? (·.id = id) = some request ∧
          c.DefinedBy request charge) ∧
        (∀ more : List (κ × Operation), ∃ store,
          (a.after more).container? database id = some (c.withStore store) ∧
            store.field = c.store.field) ∧
        ∀ details request, ContainerRequest.ofValue details = .ok request → request.id = id →
          (a.run (.createContainer database details)).result = .ok (.container c) ∧
            (a.run (.createContainer database details)).state = a := by
  intro a log
  have hrecorded : a.Recorded charge log :=
    (recorded_new charge).after (charged_new charge) rfl sent
  obtain ⟨hcharged, hcharge⟩ : a.Charged ∧ a.charge = charge :=
    charged_runAll (charged_new charge) _
  refine ⟨hrecorded.databases, hrecorded.containers, fun database id c hc => ?_⟩
  refine ⟨hrecorded.definition hc, hrecorded.exists_withStore hcharged hcharge hc, ?_⟩
  rintro details request hrequest rfl
  obtain ⟨d, hd, hfound⟩ := container?_eq_some hc
  obtain ⟨hresult, hstate⟩ := createContainer_of_ok hd hrequest
  have hsame : d.containerFor request = c := by
    rw [Database.containerFor, hfound, Option.getD_some]
  rw [hsame] at hresult hstate
  exact ⟨hresult, hstate.trans (setContainer_self hc)⟩

/-- Two clients ask for one container with different paths, and one of them stores a document in
between. -/
theorem first_definition_holds_paths :
    let details (id path : String) : Value :=
      .obj [("id", .str id), ("partitionKey", .obj [("paths", .arr [.str path])])]
    let sent : List (Bool × Operation) :=
      [(false, .createDatabase (.obj [("id", .str "db")])),
        (true, .createContainer "db" (details "c" "/a/b")),
        (false, .act "db" "c" Double.one
          (.upsert (.obj [("id", .str "1"), ("a", .obj [("b", .str "x")])]))),
        (true, .createContainer "db" (details "d" "/c")),
        (false, .createContainer "db" (details "c" "/c"))]
    let a := Account.after {} sent
    a.databaseIds = ["db"] ∧ a.containerIds "db" = ["c", "d"] ∧
      ∃ c, a.container? "db" "c" = some c ∧ c.store.field = "a.b" ∧ c.store.count = 1 ∧
        (a.run (.createContainer "db" (details "c" "/e"))).result = .ok (.container c) ∧
        ∃ store, (a.after [(true, .createContainer "db" (details "c" "/e"))]).container? "db" "c" =
          some (c.withStore store) ∧ store.field = "a.b" := by
  intro details sent a
  obtain ⟨hdatabases, hcontainers, hdefinition⟩ :=
    first_definition_holds (.double Double.one) sent
  have hsome : (a.container? "db" "c").isSome := by decide +kernel
  obtain ⟨c, hc⟩ := Option.isSome_iff_exists.1 hsome
  obtain ⟨-, hkept, hagain⟩ := hdefinition "db" "c" c hc
  have hfield : (a.container? "db" "c").map (·.store.field) = some "a.b" := by decide +kernel
  have hcount : (a.container? "db" "c").map (·.store.count) = some 1 := by decide +kernel
  rw [hc, Option.map_some, Option.some.injEq] at hfield hcount
  obtain ⟨store, hstore, hsame⟩ := hkept [(true, .createContainer "db" (details "c" "/e"))]
  refine ⟨hdatabases.trans (by decide +kernel), (hcontainers "db").trans (by decide +kernel), c, hc,
    hfield, hcount, (hagain (details "c" "/e") _ rfl rfl).1, store, hstore, hsame.trans hfield⟩

end Recorded

end Account

end Pigeonhole
