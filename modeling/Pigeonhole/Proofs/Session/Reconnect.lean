import Pigeonhole.Proofs.Account.Failure
import Pigeonhole.Proofs.Session.Attempts
import Pigeonhole.Proofs.Session.Provision

/-!
# Connecting again

A database that refuses no call takes all requests in a first round of turns and answers them in a
second.  What has a name is there after that, and what has none fails once more in each round and is
abandoned in the last (`createAll_backend`).  So a connection adds what is missing and nothing else,
and connecting once more changes nothing (`connect_connect`).
-/

namespace Pigeonhole

/-! ## Rounds of turns -/

namespace Session

namespace Creations

variable {σ : Type} {service : Service σ}

/-- Creations behind another one proceed by themselves. -/
theorem follow_map_succ (service : Service σ) (state : σ) (t : Creation) (parts : List Creation)
    (records : List Log.Record) (schedule : List Nat) :
    let rest := follow service { state, parts, records } schedule
    follow service { state, parts := t :: parts, records } (schedule.map (· + 1)) =
      { rest with parts := t :: rest.parts } := by
  induction schedule generalizing state parts records with
  | nil => rfl
  | cons i schedule ih =>
    rw [List.map_cons, follow_cons, follow_cons]
    cases h : parts[i]? with
    | none =>
      have hnone : (Creations.mk state (t :: parts) records).parts[i + 1]? = none := h
      rw [proceed_of_none hnone, proceed_of_none h]
      exact ih state parts records
    | some u =>
      rw [proceed_of_getElem? (show (t :: parts)[i + 1]? = some u from h), proceed_of_getElem? h]
      exact ih _ _ _

/-- A round of turns: the first creation proceeds, and then the others in order. -/
theorem follow_range_succ (service : Service σ) (state : σ) (t : Creation) (parts : List Creation)
    (records : List Log.Record) (n : Nat) :
    let rest := follow service
      { state := (t.proceed service state).1
        parts
        records := records ++ (t.proceed service state).2.2 } (List.range n)
    follow service { state, parts := t :: parts, records } (List.range (n + 1)) =
      { rest with parts := (t.proceed service state).2.1 :: rest.parts } := by
  intro rest
  rw [List.range_succ_eq_map, follow_cons, proceed_of_getElem? (t := t) rfl]
  exact follow_map_succ service _ _ parts _ _

theorem follow_append (service : Service σ) (all : Creations σ) (first second : List Nat) :
    all.follow service (first ++ second) = (all.follow service first).follow service second :=
  List.foldl_append

end Creations

/-! ## A database that refuses nothing -/

/-- The creation of a container after a number of failed tries that were all answered. -/
def waiting (k : Nat) (o : ContainerOptions) : Creation :=
  { options := o, failed := k, stage := if k < maxAttempts then .called else .abandoned }

theorem waiting_of_lt {k : Nat} (h : k < maxAttempts) (o : ContainerOptions) :
    waiting k o = { options := o, failed := k, stage := .called } := by
  rw [waiting, if_pos h]

theorem waiting_of_not_lt {k : Nat} (h : ¬ k < maxAttempts) (o : ContainerOptions) :
    waiting k o = { options := o, failed := k, stage := .abandoned } := by
  rw [waiting, if_neg h]

/-- The creation of a container after a number of rounds: it has been created unless it has no
name. -/
def settled (d : Database) (k : Nat) (o : ContainerOptions) : Creation :=
  if o.name = "" then waiting k o
  else { options := o, stage := .created (d.containerFor o.request) }

section Backend

variable (d : Database) (calls : List Value) (o : ContainerOptions)

theorem proceed_fresh :
    Creation.proceed Backend.service ⟨d, [], calls⟩ { options := o } =
      (⟨d, [], calls ++ [o.details]⟩, waiting 0 o, []) := by
  rw [Creation.proceed_of_fresh rfl]
  exact Creation.begin_succ_of_none rfl _

theorem proceed_waiting_zero (hname : o.name ≠ "") :
    (waiting 0 o).proceed Backend.service ⟨d, [], calls⟩ =
      (⟨d.add o, [], calls⟩, settled (d.add o) 1 o, (d.createContainer o.details).records) := by
  obtain ⟨hresult, hstate⟩ := d.createContainer_of_ok (o.ofValue_details hname)
  have hanswer : (Backend.service.answer ⟨d, [], calls⟩ o.details).2.1 =
      .ok (d.containerFor o.request) := by
    show Except.mapError Failure.text (d.createContainer o.details).result = _
    rw [hresult]
    rfl
  have hadd : (d.createContainer o.details).state = d.add o := by
    rw [hstate, Database.add, if_neg hname]
    rfl
  rw [Creation.proceed_of_ok rfl hanswer, settled, if_neg hname,
    Database.containerFor_of_some (Database.container?_add_self hname), ← hadd]
  rfl

theorem proceed_waiting (hname : o.name = "") {k : Nat} (hk : k < maxAttempts) :
    ∃ calls' records, (waiting k o).proceed Backend.service ⟨d, [], calls⟩ =
      (⟨d, [], calls'⟩, waiting (k + 1) o, records) := by
  obtain ⟨e, he⟩ := o.exists_ofValue_details hname
  have hanswer : Backend.service.answer ⟨d, [], calls⟩ o.details =
      (⟨d, [], calls⟩, .error e.text, []) := by
    show (Backend.mk _ _ _, Except.mapError Failure.text _, _) = _
    rw [d.createContainer_of_error he]
    rfl
  rw [waiting_of_lt hk, Creation.proceed_of_error rfl (congrArg (·.2.1) hanswer), hanswer]
  let failure := Creation.failureRecord { options := o, failed := k, stage := .called } e.text
  by_cases hlast : k + 1 < maxAttempts
  · obtain ⟨left, hleft⟩ : ∃ left, maxAttempts - (k + 1) = left + 1 :=
      Nat.exists_eq_add_one.2 (by omega)
    refine ⟨calls ++ [o.details], [failure], ?_⟩
    rw [hleft, Creation.begin_succ_of_none rfl, waiting_of_lt hlast]
    rfl
  · have hleft : maxAttempts - (k + 1) = 0 := by omega
    refine ⟨calls, [failure], ?_⟩
    rw [hleft, waiting_of_not_lt hlast]
    rfl

end Backend

/-- The first round: all requests are made. -/
theorem follow_fresh (d : Database) (calls : List Value) (containers : List ContainerOptions)
    (records : List Log.Record) :
    ∃ calls', Creations.follow Backend.service
        { state := ⟨d, [], calls⟩, parts := containers.map fun options => { options }, records }
        (List.range containers.length) =
      { state := ⟨d, [], calls'⟩, parts := containers.map (waiting 0), records } := by
  induction containers generalizing calls records with
  | nil => exact ⟨calls, rfl⟩
  | cons o rest ih =>
    obtain ⟨calls', hrest⟩ := ih (calls ++ [o.details]) records
    refine ⟨calls', ?_⟩
    rw [List.length_cons, List.map_cons, Creations.follow_range_succ, proceed_fresh,
      List.append_nil, hrest]
    rfl

/-- The second round: what has a name is created, if it is not there. -/
theorem follow_waiting (d : Database) (calls : List Value) (containers : List ContainerOptions)
    (records : List Log.Record) :
    ∃ calls' records', Creations.follow Backend.service
        { state := ⟨d, [], calls⟩, parts := containers.map (waiting 0), records }
        (List.range containers.length) =
      { state := ⟨d.addAll containers, [], calls'⟩
        parts := containers.map (settled (d.addAll containers) 1)
        records := records' } := by
  induction containers generalizing d calls records with
  | nil => exact ⟨calls, records, rfl⟩
  | cons o rest ih =>
    rw [List.length_cons, List.map_cons, Creations.follow_range_succ]
    by_cases hname : o.name = ""
    · obtain ⟨called, reported, hproceed⟩ :=
        proceed_waiting d calls o hname (k := 0) (by decide)
      obtain ⟨calls', records', hrest⟩ := ih d called (records ++ reported)
      refine ⟨calls', records', ?_⟩
      have hadd : d.addAll (o :: rest) = d.addAll rest := by
        show (d.add o).addAll rest = _
        rw [Database.add, if_pos hname]
      rw [hproceed, hrest, hadd, List.map_cons, settled, if_pos hname]
    · rw [proceed_waiting_zero d calls o hname]
      obtain ⟨calls', records', hrest⟩ := ih (d.add o) calls
        (records ++ (d.createContainer o.details).records)
      refine ⟨calls', records', ?_⟩
      have hcontainer : (d.add o).containerFor o.request =
          ((d.add o).addAll rest).containerFor o.request := by
        have hadd := d.container?_add_self hname
        rw [Database.containerFor_of_some hadd,
          Database.containerFor_of_some (Database.container?_addAll hadd rest)]
      rw [hrest, List.map_cons, settled, settled, if_neg hname, if_neg hname, hcontainer]
      rfl

/-- A further round: what has no name fails once more. -/
theorem follow_settled (d : Database) (calls : List Value) {k : Nat} (hk : k < maxAttempts)
    (containers : List ContainerOptions) (records : List Log.Record) :
    ∃ calls' records', Creations.follow Backend.service
        { state := ⟨d, [], calls⟩, parts := containers.map (settled d k), records }
        (List.range containers.length) =
      { state := ⟨d, [], calls'⟩
        parts := containers.map (settled d (k + 1))
        records := records' } := by
  induction containers generalizing calls records with
  | nil => exact ⟨calls, records, rfl⟩
  | cons o rest ih =>
    rw [List.length_cons, List.map_cons, List.map_cons, Creations.follow_range_succ]
    by_cases hname : o.name = ""
    · obtain ⟨called, reported, hproceed⟩ := proceed_waiting d calls o hname hk
      obtain ⟨calls', records', hrest⟩ := ih called (records ++ reported)
      refine ⟨calls', records', ?_⟩
      rw [settled, if_pos hname, hproceed, hrest, settled, if_pos hname]
    · obtain ⟨calls', records', hrest⟩ := ih calls (records ++ [])
      refine ⟨calls', records', ?_⟩
      rw [settled, if_neg hname, Creation.proceed_of_isDone rfl, hrest, settled, if_neg hname]

/-- The creations of containers in a database that refuses nothing, when they have ended. -/
theorem createAll_backend (d : Database) (calls : List Value)
    (containers : List ContainerOptions) :
    ∃ calls' records, createAll Backend.service ⟨d, [], calls⟩ containers =
      { state := ⟨d.addAll containers, [], calls'⟩
        parts := containers.map (settled (d.addAll containers) maxAttempts)
        records } := by
  obtain ⟨calls, hfirst⟩ := follow_fresh d calls containers []
  obtain ⟨calls, records, hsecond⟩ := follow_waiting d calls containers []
  obtain ⟨calls, records, hthird⟩ :=
    follow_settled (d.addAll containers) calls (k := 1) (by decide) containers records
  obtain ⟨calls, records, hfourth⟩ :=
    follow_settled (d.addAll containers) calls (k := 2) (by decide) containers records
  refine ⟨calls, records, ?_⟩
  have hturns : turns containers.length =
      List.range containers.length ++ (List.range containers.length ++
        (List.range containers.length ++ List.range containers.length)) := by
    simp only [turns, maxAttempts, List.replicate_succ, List.replicate_zero, List.flatten_cons,
      List.flatten_nil, List.append_nil]
  rw [createAll, hturns, Creations.follow_append, Creations.start, hfirst, Creations.follow_append,
    hsecond, Creations.follow_append, hthird, hfourth]
  rfl

/-! ## Connections -/

section Ended

variable {d : Database} {containers : List ContainerOptions} {all : Creations Backend}

theorem container?_settled (d : Database) (o : ContainerOptions) :
    (settled d maxAttempts o).container? =
      if o.name = "" then none else some (d.containerFor o.request) := by
  unfold settled
  split
  · rfl
  · rfl

theorem options_settled (d : Database) (k : Nat) (o : ContainerOptions) :
    (settled d k o).options = o := by
  unfold settled
  split
  · rfl
  · rfl

theorem failures_settled (h : all.parts = containers.map (settled d maxAttempts)) :
    all.failures = (containers.map (·.name)).filter (· = "") := by
  rw [Creations.failures, h, List.filter_map, List.map_map, List.filter_map]
  have hnames : (fun t : Creation => t.options.name) ∘ settled d maxAttempts = (·.name) := by
    funext o
    exact congrArg (·.name) (options_settled d maxAttempts o)
  rw [hnames]
  congr 1
  apply List.filter_congr
  intro o _
  show (settled d maxAttempts o).container?.isNone = decide (o.name = "")
  rw [container?_settled]
  by_cases hname : o.name = ""
  · rw [if_pos hname, decide_eq_true hname]
    rfl
  · rw [if_neg hname, decide_eq_false hname]
    rfl

/-- Containers that all have a name are created, once each, as they are in the database. -/
theorem created_settled (h : all.parts = containers.map (settled d maxAttempts))
    (hnames : "" ∉ containers.map (·.name))
    (hthere : ∀ o ∈ containers, o.name ≠ "" → (d.container? o.name).isSome = true) :
    all.created = (containers.map (·.name)).eraseDups.filterMap
      fun name => (d.container? name).map (name, ·) := by
  have hname : ∀ o ∈ containers, o.name ≠ "" := fun o ho hempty =>
    hnames (hempty ▸ List.mem_map_of_mem ho)
  have hpairs : (all.parts.filterMap fun t => t.container?.map (t.options.name, ·)) =
      containers.map fun o => (o.name, d.containerFor o.request) := by
    rw [h, List.filterMap_map, ← List.filterMap_eq_map]
    apply List.filterMap_congr
    intro o ho
    simp only [Function.comp_apply, container?_settled, options_settled, if_neg (hname o ho),
      Option.map_some]
  rw [Creations.created, hpairs, assignAll_eq_filterMap, List.map_map]
  apply List.filterMap_congr
  intro name hmem
  congr 1
  apply lookup_eq_of_forall
  · intro e he
    obtain ⟨o, ho, rfl⟩ := List.mem_map.1 (List.mem_reverse.1 he)
    obtain ⟨c, hc⟩ := Option.isSome_iff_exists.1 (hthere o ho (hname o ho))
    rw [Database.containerFor_of_some hc, hc]
  · rw [List.map_reverse, List.mem_reverse, List.map_map]
    exact List.mem_eraseDups.1 hmem

end Ended

/-- What opening a connection comes to in a database that refuses nothing and has all containers
that have a name: they are connected to, or those without a name are reported. -/
def opened (d : Database) (options : ConnectionOptions) : Except Failure Connection :=
  let names := options.containers.map (·.name)
  if "" ∈ names then .error (.containersFailed (names.filter (· = "")))
  else
    .ok { database := options.name
          containers := names.eraseDups.filterMap fun name => (d.container? name).map (name, ·) }

end Session

namespace Account

/-- Every database is found under its id. -/
structure Named (a : Account) : Prop where
  id : ∀ {name d}, a.database? name = some d → d.id = name

variable {a : Account} {name : String} {d : Database}

theorem Named.setDatabase (h : a.Named) (hd : d.id = name) : (a.setDatabase name d).Named where
  id {other found} hfound := by
    by_cases hname : other = name
    · subst hname
      rw [database?_setDatabase_self, Option.some.injEq] at hfound
      rw [← hfound, hd]
    · rw [database?_setDatabase_of_ne hname] at hfound
      exact h.id hfound

theorem Named.setContainer (h : a.Named) (database container : String) (c : Container) :
    (a.setContainer database container c).Named := by
  cases hd : a.database? database with
  | none => simpa only [Account.setContainer, hd] using h
  | some d =>
    have hid : d.id = database := h.id hd
    rw [setContainer_of_some hd]
    exact h.setDatabase (d := d.setContainer container c) hid

theorem Named.run (h : a.Named) (op : Operation) : (a.run op).state.Named := by
  obtain hs | ⟨id, hs, -⟩ | ⟨database, d, request, -, hs⟩ | ⟨_, _, _, _, _, _, -, -, hs⟩ :=
    a.state_run_cases op
  · rwa [hs]
  · rw [hs]
    exact h.setDatabase rfl
  · rw [hs]
    exact h.setContainer _ _ _
  · rw [hs]
    exact h.setContainer _ _ _

theorem named_new (charge : Number) : Named { charge } where
  id h := nomatch h

theorem Named.runAll (h : a.Named) (ops : List Operation) : (a.runAll ops).1.Named := by
  induction ops generalizing a with
  | nil => exact h
  | cons op rest ih => exact ih (h.run op)

theorem Named.id_databaseFor (h : a.Named) (name : String) : (a.databaseFor ⟨name⟩).id = name := by
  unfold databaseFor
  cases hd : a.database? name with
  | none => rfl
  | some d => exact h.id hd

theorem databaseFor_of_some (h : a.database? name = some d) : a.databaseFor ⟨name⟩ = d := by
  rw [databaseFor, h, Option.getD_some]

theorem setDatabase_setDatabase (a : Account) (name : String) (first second : Database) :
    (a.setDatabase name first).setDatabase name second = a.setDatabase name second := by
  unfold setDatabase
  rw [assign_assign]

/-- Creating a database by its name. -/
theorem createDatabase_of_name (a : Account) (h : name ≠ "") :
    (a.createDatabase (.obj [("id", .str name)])).result = .ok (a.databaseFor ⟨name⟩) ∧
      (a.createDatabase (.obj [("id", .str name)])).state =
        a.setDatabase name (a.databaseFor ⟨name⟩) := by
  unfold createDatabase databaseFor
  simp only [DatabaseRequest.ofValue_name h]
  cases hd : a.database? name with
  | none => exact ⟨rfl, rfl⟩
  | some d => exact ⟨rfl, (setDatabase_self hd).symm⟩

end Account

namespace Session

open Account

variable {a : Account} {options : ConnectionOptions}

theorem state_outcome {σ : Type} (all : Creations σ) (name id : String) :
    (all.outcome name id).state = all.state := by
  unfold Creations.outcome
  split
  · rfl
  · rfl

theorem outcome_settled {d : Database} {all : Creations Backend}
    (h : all.parts = options.containers.map (settled d maxAttempts))
    (hthere : ∀ o ∈ options.containers, o.name ≠ "" → (d.container? o.name).isSome = true) :
    (all.outcome options.name options.name).result = opened d options := by
  have hfailures := failures_settled h
  unfold Creations.outcome opened
  by_cases hnames : "" ∈ options.containers.map (·.name)
  · have hsome : all.failures.isEmpty = false := by
      rw [hfailures, List.isEmpty_eq_false_iff]
      exact List.ne_nil_of_mem (List.mem_filter.2 ⟨hnames, decide_eq_true rfl⟩)
    rw [hsome, if_pos hnames, ← hfailures]
    rfl
  · have hnone : all.failures.isEmpty = true := by
      rw [hfailures, List.isEmpty_iff, List.filter_eq_nil_iff]
      intro name hname hempty
      exact hnames (of_decide_eq_true hempty ▸ hname)
    rw [hnone, if_neg hnames, ← created_settled h hnames hthere]
    rfl

/-- A connection adds the containers that are missing to its database. -/
theorem connect_of_named (h : a.Named) (calls : List Value) (hname : options.name ≠ "") :
    let d := (a.databaseFor ⟨options.name⟩).addAll options.containers
    (connect { account := a, calls } options).result = opened d options ∧
      ∃ calls', (connect { account := a, calls } options).state =
        { account := a.setDatabase options.name d, calls := calls' } := by
  intro d
  obtain ⟨hresult, hstate⟩ := a.createDatabase_of_name hname
  obtain ⟨calls', records, hall⟩ :=
    createAll_backend (a.databaseFor ⟨options.name⟩) calls options.containers
  have hended := outcome_settled (d := d) (congrArg Creations.parts hall)
    fun o ho hempty => Database.isSome_container?_addAll ho hempty
  rw [hall] at hended
  unfold connect
  simp only [hresult, hstate, h.id_databaseFor, state_outcome, setDatabase_setDatabase, hall]
  exact ⟨hended, calls', rfl⟩

/-- The requests that a connection amounts to. -/
def requests (options : ConnectionOptions) : List Operation :=
  .createDatabase (.obj [("id", .str options.name)]) ::
    options.containers.map fun o => .createContainer options.name o.details

theorem runAll_createContainer {d : Database} (h : a.database? options.name = some d)
    (containers : List ContainerOptions) :
    (a.runAll (containers.map fun o => .createContainer options.name o.details)).1 =
      a.setDatabase options.name (d.addAll containers) := by
  induction containers generalizing a d with
  | nil => exact (setDatabase_self h).symm
  | cons o rest ih =>
    have hrun : (a.run (.createContainer options.name o.details)).state =
        a.setDatabase options.name (d.add o) := by
      show (a.createContainer options.name o.details).state = _
      rw [Database.add]
      by_cases hempty : o.name = ""
      · obtain ⟨e, he⟩ := o.exists_ofValue_details hempty
        rw [createContainer_of_error h he, if_pos hempty, setDatabase_self h]
        rfl
      · rw [(createContainer_of_ok h (o.ofValue_details hempty)).2, if_neg hempty,
          setContainer_of_some h]
        rfl
    show ((a.run (.createContainer options.name o.details)).state.runAll _).1 = _
    rw [hrun, ih (database?_setDatabase_self _ _ _), setDatabase_setDatabase]
    rfl

/-- An account after connecting is one that requests lead to. -/
theorem account_connect (h : a.Named) (calls : List Value) (hname : options.name ≠ "") :
    (connect { account := a, calls } options).state.account = (a.runAll (requests options)).1 := by
  obtain ⟨-, calls', hstate⟩ := connect_of_named h calls hname
  have hrun : (a.run (.createDatabase (.obj [("id", .str options.name)]))).state =
      a.setDatabase options.name (a.databaseFor ⟨options.name⟩) :=
    (a.createDatabase_of_name hname).2
  show _ = ((a.run (.createDatabase _)).state.runAll _).1
  rw [hstate, hrun, runAll_createContainer (database?_setDatabase_self _ _ _),
    setDatabase_setDatabase]

/-- Connecting to any account keeps all databases and containers as they are.  It adds the database,
if it is missing, and after its containers the missing ones, one for each name, with the definition
that its first options ask for; all containers with a name are there afterwards.  The connection is
opened, or it fails with the containers that have no name.  Connecting once more leaves the account
as it is and ends likewise. -/
theorem connect_connect (charge : Number) (ops : List Operation) (calls : List Value)
    (options : ConnectionOptions) (hname : options.name ≠ "") :
    let a := (Account.runAll { charge } ops).1
    let d := (a.database? options.name).getD { id := options.name, charge }
    let final : Database := { d with containers := d.containers ++ d.missing options.containers }
    let o := connect { account := a, calls } options
    let again := connect o.state options
    o.state.account = a.setDatabase options.name final ∧
      (∀ database container c, a.container? database container = some c →
        o.state.account.container? database container = some c) ∧
      (∀ p ∈ options.containers, p.name ≠ "" → (final.container? p.name).isSome = true) ∧
      o.result = opened final options ∧
      again.state.account = o.state.account ∧ again.result = o.result := by
  intro a d final o again
  have hnamed : a.Named := (named_new charge).runAll ops
  have hcharge : a.charge = charge := (charged_runAll (charged_new charge) ops).2
  have hd : a.databaseFor ⟨options.name⟩ = d := by rw [databaseFor, hcharge]
  have hfinal : d.addAll options.containers = final := d.containers_addAll options.containers
  obtain ⟨hresult, calls', hstate⟩ := connect_of_named hnamed calls hname
  rw [hd, hfinal] at hresult hstate
  have hid : final.id = options.name := by
    rw [show final.id = d.id from rfl, ← hd, hnamed.id_databaseFor]
  -- the second connection finds the database with all containers that have a name
  have hthere : ((a.setDatabase options.name final).databaseFor ⟨options.name⟩).addAll
      options.containers = final := by
    rw [databaseFor_of_some (database?_setDatabase_self _ _ _), ← hfinal, Database.addAll_addAll]
  obtain ⟨hagain, calls'', hsame⟩ := connect_of_named (hnamed.setDatabase hid) calls' hname
  rw [hthere, setDatabase_setDatabase, ← hstate] at hsame
  rw [hthere, ← hstate, ← hresult] at hagain
  have haccount : o.state.account = a.setDatabase options.name final := congrArg (·.account) hstate
  refine ⟨haccount, ?_, ?_, hresult, ?_, hagain⟩
  · intro database container c hc
    rw [haccount]
    by_cases hdatabase : database = options.name
    · rw [hdatabase, container?_setDatabase_self, ← hfinal]
      obtain ⟨found, hfound, hcontainer⟩ := container?_eq_some hc
      rw [hdatabase] at hfound
      have hfor : d = found := by
        rw [← hd, databaseFor_of_some hfound]
      apply Database.container?_addAll
      rw [hfor, hcontainer]
    · rw [container?_setDatabase_of_ne hdatabase, hc]
  · intro p hp hempty
    rw [← hfinal]
    exact Database.isSome_container?_addAll hp hempty
  · rw [haccount]
    exact congrArg (·.account) hsame

/-- The container `a` is there with another partition key, one entry has no name, and `b` stands
twice. -/
theorem connect_connect_partly :
    let ops : List Operation :=
      [.createDatabase (.obj [("id", .str "db")]),
        .createContainer "db" (.obj [("id", .str "a"),
          ("partitionKey", .obj [("paths", .arr [.str "/k"])])]),
        .act "db" "a" Double.one (.upsert (.obj [("id", .str "1"), ("k", .str "x")]))]
    let options : ConnectionOptions :=
      { name := "db"
        containers := [{ name := "a", partitionKey := "other" }, { name := "", partitionKey := "k" },
          { name := "b", partitionKey := "k", indexExclusions := .all },
          { name := "b", partitionKey := "other" }] }
    let a := (Account.runAll { charge := .int 1 } ops).1
    let o := connect { account := a } options
    options.name ≠ "" ∧ o.result = .error (.containersFailed [""]) ∧
      (o.state.account.container? "db" "a").map (·.field) = some "k" ∧
      (o.state.account.container? "db" "b").map (·.indexingPolicy) =
        some (some { excluded := some ["/*"] }) ∧
      (o.state.account.database? "db").map (·.containerIds) = some ["a", "b"] ∧
      (connect o.state options).state.account = o.state.account := by
  intro ops options a o
  have hname : options.name ≠ "" := by decide
  obtain ⟨hstate, hkeeps, -, hresult, hagain, -⟩ := connect_connect (.int 1) ops [] options hname
  have hfield : (a.container? "db" "a").map (·.field) = some "k" := by decide
  refine ⟨hname, ?_, ?_, ?_, ?_, ?_⟩
  · rw [hresult]
    rfl
  · obtain ⟨c, hc, hk⟩ := Option.map_eq_some_iff.1 hfield
    rw [hkeeps "db" "a" c hc, ← hk]
    rfl
  · rw [hstate]
    rfl
  · rw [hstate]
    rfl
  · simp only [o, a]
    exact hagain

end Session

end Pigeonhole
