import Pigeonhole.Proofs.Account.Place
import Pigeonhole.Proofs.Schema.Fields
import Pigeonhole.Session.Options

/-!
# Containers for options

The details of container options are a well-formed request unless the name is empty
(`ofValue_details`).  `Database.addAll` creates the containers of several options one after the
other: what is there stays (`container?_addAll`), and what is missing comes after it, once for each
name and as its first options say (`containers_addAll`).
-/

namespace Pigeonhole

/-! ## Requests -/

theorem checkId_of_ne (message : String) {name : String} (h : name ≠ "") :
    checkId message (.str name) = .ok name := by
  simp [checkId, Value.asString, Checked.rule, Checked.andThen, h]

theorem DatabaseRequest.ofValue_name {name : String} (h : name ≠ "") :
    DatabaseRequest.ofValue (.obj [("id", .str name)]) = .ok ⟨name⟩ := by
  have hcheck : DatabaseRequest.check [("id", .str name)] = .ok ⟨name⟩ := by
    rw [DatabaseRequest.check, Field.required_of_lookup rfl, checkId_of_ne _ h]
    rfl
  unfold DatabaseRequest.ofValue readRequest
  simp only [Value.toMembers, hcheck]

namespace IndexExclusions

/-- The indexing policy of exclusions: none, all paths left out, or the system's own path and some
others. -/
def indexingPolicy? : IndexExclusions → Option IndexingPolicy
  | none => Option.none
  | all => some { excluded := some ["/*"] }
  | paths list => some { included := some ["/*"], excluded := some ("/\"_etag\"/?" :: list) }

theorem asModel_exclude (list : List String) :
    Value.asModel IndexingPolicy.check (exclude (list.map .str)) =
      .ok { included := some ["/*"], excluded := some ("/\"_etag\"/?" :: list) } := by
  have hentries : (Tree.str "/\"_etag\"/?" :: list.map .str).map pathEntry =
      ("/\"_etag\"/?" :: list).map fun p => pathEntry (.str p) := by
    rw [List.map_cons, List.map_map, List.map_cons]
    rfl
  have hpath : ∀ p, IndexingPolicy.checkPath (pathEntry (.str p)) = .ok p := fun _ => rfl
  have hpaths : Value.asOptional (Value.asList IndexingPolicy.checkPath)
      (.arr ((Tree.str "/\"_etag\"/?" :: list.map .str).map pathEntry)) =
        .ok (some ("/\"_etag\"/?" :: list)) := by
    show Checked.map some (Checked.items _ 0 _) = _
    rw [hentries, Checked.items_map hpath]
    rfl
  have hmembers : Value.asModel IndexingPolicy.check (exclude (list.map .str)) =
      IndexingPolicy.check [("includedPaths", everything),
        ("excludedPaths", .arr ((Tree.str "/\"_etag\"/?" :: list.map .str).map pathEntry))] := rfl
  rw [hmembers, IndexingPolicy.check, Field.optional_of_lookup rfl, Field.optional_of_lookup rfl,
    hpaths]
  rfl

end IndexExclusions

namespace ContainerOptions

/-- The request that options for a container amount to. -/
def request (o : ContainerOptions) : ContainerRequest where
  id := o.name
  partitionKey := { paths := ["/" ++ o.partitionKey] }
  indexingPolicy := o.indexExclusions.indexingPolicy?

theorem policyField_details (o : ContainerOptions) (before : List (String × Value))
    (h : before.lookup "indexingPolicy" = none) (hsecond : before.lookup "indexing_policy" = none) :
    ContainerRequest.policyField.optional none
        (Value.asOptional (Value.asModel IndexingPolicy.check))
        (before ++ o.indexExclusions.policy?.toList.map fun policy => ("indexingPolicy", policy)) =
      .ok o.indexExclusions.indexingPolicy? := by
  cases hexclusions : o.indexExclusions with
  | none =>
    rw [IndexExclusions.policy?, Option.toList_none, List.map_nil, List.append_nil]
    exact Field.optional_of_none h hsecond _ _
  | all =>
    rw [Field.optional_of_lookup (v := IndexExclusions.excludeAll)]
    · rfl
    · show (before ++ _).lookup "indexingPolicy" = _
      rw [List.lookup_append, h]
      rfl
  | paths list =>
    rw [Field.optional_of_lookup (v := IndexExclusions.exclude (list.map .str))]
    · show Checked.under _ (Checked.map some (Value.asModel _ _)) = _
      rw [IndexExclusions.asModel_exclude]
      rfl
    · show (before ++ _).lookup "indexingPolicy" = _
      rw [List.lookup_append, h]
      rfl

theorem ofValue_details (o : ContainerOptions) (h : o.name ≠ "") :
    ContainerRequest.ofValue o.details = .ok o.request := by
  have hcheck : ContainerRequest.check ([("id", .str o.name),
      ("partitionKey", .obj [("paths", stringsValue ["/" ++ o.partitionKey])])] ++
        o.indexExclusions.policy?.toList.map fun policy => ("indexingPolicy", policy)) =
      .ok o.request := by
    rw [ContainerRequest.check, policyField_details o _ rfl rfl, Field.required_of_lookup rfl,
      Field.required_of_lookup rfl, checkId_of_ne _ h]
    rfl
  unfold details ContainerRequest.ofValue readRequest
  simp only [Value.toMembers, hcheck]

theorem exists_ofValue_details (o : ContainerOptions) (h : o.name = "") :
    ∃ e, ContainerRequest.ofValue o.details = .error e := by
  have hid : checkId "Container ID cannot be empty" (.str o.name) =
      .fail (.rule "Container ID cannot be empty") := by
    simp [checkId, Value.asString, Checked.rule, Checked.andThen, h]
  have hcheck : ∃ list, ContainerRequest.check ([("id", .str o.name),
      ("partitionKey", .obj [("paths", stringsValue ["/" ++ o.partitionKey])])] ++
        o.indexExclusions.policy?.toList.map fun policy => ("indexingPolicy", policy)) =
      .issues list := by
    rw [ContainerRequest.check, policyField_details o _ rfl rfl, Field.required_of_lookup rfl,
      Field.required_of_lookup rfl, hid]
    exact ⟨_, rfl⟩
  obtain ⟨list, hlist⟩ := hcheck
  unfold details ContainerRequest.ofValue readRequest
  simp only [Value.toMembers, hlist]
  exact ⟨_, rfl⟩

/-- The container that options ask for, without documents. -/
def container (o : ContainerOptions) (charge : Number) : Container where
  id := o.name
  partitionKey := { paths := ["/" ++ o.partitionKey] }
  indexingPolicy := o.indexExclusions.indexingPolicy?
  charge := charge
  store := Store.empty (Pigeonhole.partitionKeyField ("/" ++ o.partitionKey))

theorem create_request (o : ContainerOptions) (charge : Number) :
    Container.create o.request charge = o.container charge := rfl

end ContainerOptions

/-! ## Adding containers -/

namespace Database

variable {d : Database} {name : String}

/-- The database with the container of options, if they name one. -/
def add (d : Database) (o : ContainerOptions) : Database :=
  if o.name = "" then d else d.setContainer o.name (d.containerFor o.request)

/-- The database with the containers of options, in order. -/
def addAll (d : Database) (containers : List ContainerOptions) : Database :=
  containers.foldl add d

/-- The containers of options that a database does not have: one for each name that is not empty, in
the order of the first options for it, and as these say. -/
def missing (d : Database) (containers : List ContainerOptions) : List (String × Container) :=
  ((containers.map (·.name)).eraseDups.filter fun name =>
      name ≠ "" ∧ d.container? name = none).filterMap fun name =>
    (containers.find? (·.name = name)).map fun o => (name, o.container d.charge)

theorem container?_eq_none_iff :
    d.container? name = none ↔ name ∉ d.containers.map (·.1) := by
  rw [container?, ← isSome_lookup_iff, Bool.not_eq_true, Option.isSome_eq_false_iff,
    Option.isNone_iff_eq_none]

theorem containerFor_of_some {o : ContainerOptions} {c : Container}
    (h : d.container? o.name = some c) : d.containerFor o.request = c := by
  rw [containerFor, show d.container? o.request.id = some c from h, Option.getD_some]

theorem container?_add_self {o : ContainerOptions} (h : o.name ≠ "") :
    (d.add o).container? o.name = some (d.containerFor o.request) := by
  rw [add, if_neg h, container?_setContainer_self]

theorem add_of_some {o : ContainerOptions} (h : (d.container? o.name).isSome = true) :
    d.add o = d := by
  obtain ⟨c, hc⟩ := Option.isSome_iff_exists.1 h
  unfold add
  split
  · rfl
  · rw [containerFor_of_some hc, setContainer_self hc]

theorem add_of_none {o : ContainerOptions} (hname : o.name ≠ "") (h : d.container? o.name = none) :
    d.add o = { d with containers := d.containers ++ [(o.name, o.container d.charge)] } := by
  have hfor : d.containerFor o.request = o.container d.charge := by
    rw [containerFor, show d.container? o.request.id = none from h, Option.getD_none,
      ContainerOptions.create_request]
  rw [add, if_neg hname, hfor, setContainer,
    assign_of_not_mem _ (container?_eq_none_iff.1 h)]

theorem container?_add {c : Container} (h : d.container? name = some c) (o : ContainerOptions) :
    (d.add o).container? name = some c := by
  unfold add
  split
  · exact h
  · by_cases hname : name = o.name
    · subst hname
      rw [container?_setContainer_self, containerFor_of_some h]
    · rw [container?_setContainer_of_ne hname, h]

/-- What is there stays as it is. -/
theorem container?_addAll {c : Container} (h : d.container? name = some c)
    (containers : List ContainerOptions) : (d.addAll containers).container? name = some c := by
  induction containers generalizing d with
  | nil => exact h
  | cons o rest ih => exact ih (container?_add h o)

/-- What is not there and not asked for is not there afterwards. -/
theorem container?_addAll_of_none {containers : List ContainerOptions}
    (h : d.container? name = none) (hname : name ∉ containers.map (·.name)) :
    (d.addAll containers).container? name = none := by
  induction containers generalizing d with
  | nil => exact h
  | cons o rest ih =>
    rw [List.map_cons, List.mem_cons, not_or] at hname
    apply ih _ hname.2
    unfold add
    split
    · exact h
    · rw [container?_setContainer_of_ne hname.1, h]

theorem isSome_container?_addAll {containers : List ContainerOptions} {o : ContainerOptions}
    (ho : o ∈ containers) (hname : o.name ≠ "") :
    ((d.addAll containers).container? o.name).isSome = true := by
  induction containers generalizing d with
  | nil => cases ho
  | cons first rest ih =>
    rcases List.mem_cons.1 ho with rfl | ho
    · show ((addAll (d.add o) rest).container? o.name).isSome = true
      rw [container?_addAll (container?_add_self hname)]
      rfl
    · exact ih ho

theorem addAll_of_isSome {containers : List ContainerOptions}
    (h : ∀ o ∈ containers, o.name ≠ "" → (d.container? o.name).isSome = true) :
    d.addAll containers = d := by
  induction containers with
  | nil => rfl
  | cons o rest ih =>
    have hadd : d.add o = d := by
      by_cases hname : o.name = ""
      · exact if_pos hname
      · exact add_of_some (h o List.mem_cons_self hname)
    show addAll (d.add o) rest = d
    rw [hadd]
    exact ih fun other ho => h other (List.mem_cons_of_mem o ho)

theorem addAll_addAll (d : Database) (containers : List ContainerOptions) :
    (d.addAll containers).addAll containers = d.addAll containers :=
  addAll_of_isSome fun _ ho hname => isSome_container?_addAll ho hname

theorem addAll_concat (d : Database) (containers : List ContainerOptions) (o : ContainerOptions) :
    d.addAll (containers ++ [o]) = (d.addAll containers).add o := by
  rw [addAll, List.foldl_append]
  rfl

/-- Further options add the container that they name, unless it is there or was named before. -/
theorem missing_concat (d : Database) (containers : List ContainerOptions) (o : ContainerOptions) :
    d.missing (containers ++ [o]) = d.missing containers ++
      if o.name ∈ containers.map (·.name) ∨ o.name = "" ∨ (d.container? o.name).isSome = true then []
      else [(o.name, o.container d.charge)] := by
  -- the options for a name that was there before are the same
  have hbefore : ∀ names : List String, (∀ name ∈ names, name ∈ containers.map (·.name)) →
      (names.filterMap fun name => ((containers ++ [o]).find? (·.name = name)).map
        fun p => (name, p.container d.charge)) =
      names.filterMap fun name => (containers.find? (·.name = name)).map
        fun p => (name, p.container d.charge) := by
    intro names hnames
    apply List.filterMap_congr
    intro name hname
    obtain ⟨p, hp, hpname⟩ := List.mem_map.1 (hnames name hname)
    have hfound : (containers.find? (·.name = name)).isSome = true :=
      List.find?_isSome.2 ⟨p, hp, decide_eq_true hpname⟩
    rw [List.find?_append]
    obtain ⟨q, hq⟩ := Option.isSome_iff_exists.1 hfound
    rw [hq]
    rfl
  have hmem : ∀ name ∈ (containers.map (·.name)).eraseDups.filter fun name =>
      decide (name ≠ "" ∧ d.container? name = none), name ∈ containers.map (·.name) := by
    intro name hname
    exact List.mem_eraseDups.1 (List.mem_of_mem_filter hname)
  unfold missing
  rw [List.map_append, List.map_singleton, eraseDups_concat]
  by_cases hold : o.name ∈ containers.map (·.name)
  · rw [if_pos hold, if_pos (.inl hold), List.append_nil, hbefore _ hmem]
  · have hnone : containers.find? (·.name = o.name) = none := by
      rw [List.find?_eq_none]
      intro p hp hpname
      exact hold (List.mem_map.2 ⟨p, hp, of_decide_eq_true hpname⟩)
    rw [if_neg hold, List.filter_append, List.filterMap_append, hbefore _ hmem]
    congr 1
    by_cases hskip : o.name = "" ∨ (d.container? o.name).isSome = true
    · rw [if_pos (.inr hskip), List.filter_singleton]
      have hfalse : decide (o.name ≠ "" ∧ d.container? o.name = none) = false := by
        rw [decide_eq_false_iff_not]
        rintro ⟨hname, hcontainer⟩
        rcases hskip with h | h
        · exact hname h
        · rw [hcontainer] at h
          contradiction
      rw [hfalse]
      rfl
    · have hnot : ¬ (o.name ∈ containers.map (·.name) ∨ o.name = "" ∨
          (d.container? o.name).isSome = true) := fun h => h.elim hold hskip
      rw [not_or, Bool.not_eq_true, Option.isSome_eq_false_iff, Option.isNone_iff_eq_none] at hskip
      rw [if_neg hnot, List.filter_singleton, decide_eq_true hskip]
      show List.filterMap _ [o.name] = _
      rw [List.filterMap_cons, List.find?_append, hnone]
      simp

/-- The missing containers come after those that are there. -/
theorem containers_addAll (d : Database) (containers : List ContainerOptions) :
    d.addAll containers = { d with containers := d.containers ++ d.missing containers } := by
  induction containers using List.reverseRecOn with
  | nil =>
    rw [show d.missing [] = [] from rfl, List.append_nil]
    rfl
  | append_singleton containers o ih =>
    rw [addAll_concat, missing_concat]
    by_cases hname : o.name = ""
    · rw [if_pos (.inr (.inl hname)), List.append_nil, add, if_pos hname, ih]
    · by_cases hold : o.name ∈ containers.map (·.name)
      · obtain ⟨p, hp, hpname⟩ := List.mem_map.1 hold
        have hsome : ((d.addAll containers).container? o.name).isSome = true := by
          rw [← hpname]
          exact isSome_container?_addAll hp (hpname ▸ hname)
        rw [if_pos (.inl hold), List.append_nil, add_of_some hsome, ih]
      · by_cases hsome : (d.container? o.name).isSome = true
        · obtain ⟨c, hc⟩ := Option.isSome_iff_exists.1 hsome
          have hafter : ((d.addAll containers).container? o.name).isSome = true := by
            rw [container?_addAll hc]
            rfl
          rw [if_pos (.inr (.inr hsome)), List.append_nil, add_of_some hafter, ih]
        · have hnone : (d.addAll containers).container? o.name = none :=
            container?_addAll_of_none (by simpa using hsome) hold
          rw [if_neg (by simp [hold, hname, hsome]), add_of_none hname hnone, ih, List.append_assoc]

end Database

end Pigeonhole
