import Pigeonhole.Proofs.Config.Load
import Pigeonhole.Proofs.Config.Merge
import Pigeonhole.Proofs.Schema.Fields
import Pigeonhole.Yaml.Reader

/-!
# Where settings are taken from

A `Setting` stands at a path of the merged mapping, and some can be given by a variable of the
environment.  What a successful load leaves of a setting has been read from the first of the
overrides, the environment and the file that has something at the path, or is the default
(`Loader.load_precedence`): the merges keep what stands at a path (`Value.at?_putOver_of_open`), and
the check of the whole reads every field from its own path (`Setting.reads_of_check`).
-/

namespace Pigeonhole

/-! ## Scalars put over others -/

namespace Checked

variable {α : Type} {default a : α} {check : Value → Checked α}

/-- Whether a check passes no mapping. -/
def Scalar (check : Value → Checked α) : Prop :=
  ∀ v a, check v = .ok a → v.isMapping = false

theorem scalar_asString : Scalar Value.asString := by
  intro v a h
  cases v <;> first | rfl | cases h

theorem Scalar.asOptional (h : Scalar check) : Scalar (Value.asOptional check) := by
  intro v a hv
  cases v with
  | null => rfl
  | _ =>
    obtain ⟨x, hx, -⟩ := map_eq_ok.1 hv
    exact h _ x hx

theorem Scalar.andThen {β : Type} (h : Scalar check) (f : α → Checked β) :
    Scalar fun v => (check v).andThen f := by
  intro v b hv
  cases hcheck : check v with
  | ok a => exact h v a hcheck
  | issues list =>
    simp only [hcheck, Checked.andThen] at hv
    contradiction

theorem scalar_asInt (readers : Readers) : Scalar (Value.asInt readers) := by
  intro v a h
  cases v <;> first | rfl | cases h

theorem scalar_asDouble (readers : Readers) : Scalar (Value.asDouble readers) := by
  intro v a h
  cases v <;> first | rfl | cases h

/-- What has been read from a merge has been read from the first of both that has something. -/
theorem Scalar.reads_or (h : Scalar check) {upper? base? : Option Value}
    (hreads : Reads default check (Value.overlay base? upper?) a) :
    Reads default check (upper?.or base?) a := by
  cases upper? with
  | none => exact hreads
  | some w =>
    have hmapping := h _ a (reads_some.1 hreads)
    rw [Value.isMapping_putOver] at hmapping
    rwa [Value.overlay,
      Value.putOver_of_not_mapping (Value.entries?_of_isMapping_eq_false hmapping)] at hreads

end Checked

/-! ## Settings -/

/-- The parts of a configuration that are set for themselves. -/
inductive Setting where
  | version
  | level
  | format
  | file
  | rotationSize
  | rotationCount
  /-- Whether there are levels of single loggers. -/
  | moduleLevels
  | moduleLevel (logger : String)
  | endpoint
  | key
  | charge

namespace Setting

open Checked

/-- The path of a setting. -/
def path : Setting → List Key
  | version => [.str "version"]
  | level => [.str "logging", .str "level"]
  | format => [.str "logging", .str "format"]
  | file => [.str "logging", .str "file"]
  | rotationSize => [.str "logging", .str "rotation_size"]
  | rotationCount => [.str "logging", .str "rotation_count"]
  | moduleLevels => [.str "logging", .str "module_levels"]
  | moduleLevel logger => [.str "logging", .str "module_levels", .str logger]
  | endpoint => [.str "emulator", .str "endpoint"]
  | key => [.str "emulator", .str "key"]
  | charge => [.str "emulator", .str "request_charge"]

/-- The variable of the environment that gives a setting: levels are in capitals, formats in small
letters, and charges are numbers. -/
def environment? (env : Environment) : Setting → Option Value
  | level => (env.setting? "LOG_LEVEL").map fun s => .str (Log.capitals s)
  | format => (env.setting? "LOG_FORMAT").map fun s => .str (String.ofList (Text.lower s.toList))
  | file => (env.setting? "LOG_FILE").map .str
  | endpoint => (env.setting? "ENDPOINT").map .str
  | key => (env.setting? "KEY").map .str
  | charge => (env.setting? "REQUEST_CHARGE").bind fun s =>
      (Numeral.readDouble? s.toList).map Tree.double
  | _ => none

/-- That a configuration has a setting from what was found for it, or the default. -/
def Reads (readers : Readers) (found : Option Value) (c : Config) : Setting → Prop
  | version => Checked.Reads "0.1.0" Config.checkVersion found c.version
  | level => Checked.Reads none LoggingConfig.checkLevel found c.logging.level
  | format => Checked.Reads .json LoggingConfig.checkFormat found c.logging.format
  | file => Checked.Reads none (Value.asOptional Value.asString) found c.logging.file
  | rotationSize => Checked.Reads "10MB" Value.asString found c.logging.rotationSize
  | rotationCount => Checked.Reads 5 (Value.asInt readers) found c.logging.rotationCount
  | moduleLevels => c.logging.moduleLevels.isSome = found.any Value.isMapping
  | moduleLevel logger =>
    Checked.Reads none (fun v => (Value.asString v).map some) found
      (c.logging.moduleLevels.bind (·.lookup logger))
  | endpoint =>
    Checked.Reads "https://localhost:8081" Value.asString found c.emulator.endpoint
  | key => Checked.Reads "" Value.asString found c.emulator.key
  | charge => Checked.Reads Double.one (EmulatorConfig.checkCharge readers) found c.emulator.charge

/-- What a configuration has from a merge it has from the first of both that has something. -/
theorem reads_or {readers : Readers} {s : Setting} {upper? base? : Option Value} {c : Config}
    (h : s.Reads readers (Value.overlay base? upper?) c) : s.Reads readers (upper?.or base?) c := by
  cases s with
  | version =>
    have hscalar : Scalar Config.checkVersion := (scalar_asString.andThen _).andThen _
    exact hscalar.reads_or h
  | level =>
    have hscalar : Scalar LoggingConfig.checkLevel := by
      intro v a hv
      cases v <;> first | rfl | cases hv
    exact hscalar.reads_or h
  | format => exact (scalar_asString.andThen _).reads_or h
  | file => exact scalar_asString.asOptional.reads_or h
  | rotationSize | endpoint | key => exact scalar_asString.reads_or h
  | rotationCount => exact (scalar_asInt readers).reads_or h
  | charge => exact ((scalar_asDouble readers).andThen _).reads_or h
  | moduleLevel logger =>
    have hscalar : Scalar fun v => (Value.asString v).map some := by
      intro v a hv
      obtain ⟨x, hx, -⟩ := map_eq_ok.1 hv
      exact scalar_asString v x hx
    exact hscalar.reads_or h
  | moduleLevels =>
    cases upper? with
    | none => exact h
    | some w => exact h.trans (Value.isMapping_putOver base? w)

theorem reads_or_or {s : Setting} {upper? settings? base? : Option Value} {c : Config}
    (h : s.Reads readers (Value.overlay (Value.overlay base? settings?) upper?) c) :
    s.Reads readers (upper?.or (settings?.or base?)) c := by
  have hover := reads_or h
  cases upper? with
  | none =>
    rw [Option.none_or] at hover ⊢
    exact reads_or hover
  | some w => exact hover

end Setting

/-! ## Checks of the whole -/

theorem Value.at?_of_members? {v : Value} {ms : List (String × Value)} (h : v.members? = some ms)
    (name : String) : v.at? [.str name] = ms.lookup name := by
  rw [members?_eq, Option.map_eq_some_iff] at h
  obtain ⟨entries, hentries, rfl⟩ := h
  rw [at?_cons hentries, Key.lookup_stringEntries]
  cases Key.lookup (.str name) entries <;> rfl

namespace Checked

/-- A field of a part has been read from below the part. -/
theorem reads_member {α β : Type} {default b : β} {check : List (String × Value) → Checked β}
    {found : Option Value} (h : Reads default (Value.asModel check) found b) {name : String}
    {fallback : α} {fieldCheck : Value → Checked α} (field : β → α)
    (hcheck : ∀ ms b, check ms = .ok b → Reads fallback fieldCheck (ms.lookup name) (field b))
    (hdefault : field default = fallback) :
    Reads fallback fieldCheck (found.bind (Value.at? [.str name])) (field b) := by
  cases found with
  | none =>
    rw [reads_none.1 h]
    exact reads_none.2 hdefault
  | some v =>
    rw [reads_some, Value.asModel] at h
    cases hms : v.members? with
    | none =>
      simp only [hms] at h
      contradiction
    | some ms =>
      simp only [hms] at h
      rw [Option.bind_some, Value.at?_of_members? hms]
      exact hcheck ms b h

theorem members_eq_entries {α : Type} (check : Value → Checked α) (ms : List (String × Value)) :
    members check ms = entries check (Key.ofMembers ms) := by
  induction ms with
  | nil => rfl
  | cons m ms ih =>
    obtain ⟨key, v⟩ := m
    show _ = entries check ((.str key, v) :: Key.ofMembers ms)
    rw [members, entries, ih, show stepOf (.str key) = .key key from rfl]
    cases (check v).under (.key key) <;> cases entries check (Key.ofMembers ms) <;> rfl

/-- The values of a checked mapping have been read from its entries. -/
theorem reads_entries {α : Type} {check : Value → Checked α} {list : List (Key × Value)}
    {read : List (String × α)} (h : entries check list = .ok read) (name : String) :
    Reads none (fun v => (check v).map some) (Key.lookup (.str name) list) (read.lookup name) := by
  induction list generalizing read with
  | nil =>
    cases h
    exact reads_none.2 rfl
  | cons entry list ih =>
    obtain ⟨key, v⟩ := entry
    simp only [entries, seq_eq_ok, map_eq_ok] at h
    obtain ⟨-, rest, ⟨-, a, ⟨s, hs, rfl⟩, ha, rfl⟩, hrest, rfl⟩ := h
    cases key with
    | str _ =>
      cases hs
      rw [under_eq_ok] at ha
      rw [Key.lookup_cons, Key.same_str, List.lookup_cons]
      by_cases hs : name = s
      · subst hs
        rw [if_pos (beq_self_eq_true _), beq_self_eq_true, reads_some, ha]
        rfl
      · rw [beq_false_of_ne hs, if_neg (by simpa using Ne.symm hs)]
        exact ih hrest
    | _ => cases hs

theorem asMapping_eq {α : Type} (check : Value → Checked α) (v : Value) :
    Value.asMapping check v =
      match v.entries? with
      | some list => entries check list
      | none => .fail .notMapping := by
  cases v with
  | obj ms => exact members_eq_entries check ms
  | foreign leaf => cases leaf <;> rfl
  | _ => rfl

/-- An optional mapping is there exactly if a mapping was found, and its values have been read from
below it. -/
theorem reads_mapping {α : Type} {check : Value → Checked α} {found : Option Value}
    {read? : Option (List (String × α))}
    (h : Reads none (Value.asOptional (Value.asMapping check)) found read?) :
    read?.isSome = found.any Value.isMapping ∧
      ∀ name, Reads none (fun v => (check v).map some) (found.bind (Value.at? [.str name]))
        (read?.bind (·.lookup name)) := by
  cases found with
  | none =>
    rw [reads_none.1 h]
    exact ⟨rfl, fun _ => reads_none.2 rfl⟩
  | some v =>
    rw [reads_some] at h
    by_cases hnull : v = .null
    · subst hnull
      cases h
      exact ⟨rfl, fun _ => reads_none.2 rfl⟩
    · have hoptional : Value.asOptional (Value.asMapping check) v =
          (Value.asMapping check v).map some := by
        cases v <;> first | rfl | exact absurd rfl hnull
      rw [hoptional] at h
      obtain ⟨read, hread, rfl⟩ := map_eq_ok.1 h
      rw [asMapping_eq] at hread
      cases hlist : v.entries? with
      | none =>
        simp only [hlist] at hread
        contradiction
      | some list =>
        simp only [hlist] at hread
        refine ⟨?_, fun name => ?_⟩
        · rw [Option.any_some, Value.isMapping, hlist]
          rfl
        · rw [Option.bind_some, Option.bind_some, Value.at?_cons hlist]
          have hname := reads_entries hread name
          cases hfound : Key.lookup (.str name) list <;> rwa [hfound] at hname

end Checked

namespace Setting

open Checked

theorem reads_of_logging {readers : Readers} {ms : List (String × Value)} {c : LoggingConfig}
    (h : LoggingConfig.check readers ms = .ok c) :
    Checked.Reads none LoggingConfig.checkLevel (ms.lookup "level") c.level ∧
      Checked.Reads .json LoggingConfig.checkFormat (ms.lookup "format") c.format ∧
      Checked.Reads none (Value.asOptional Value.asString) (ms.lookup "file") c.file ∧
      Checked.Reads "10MB" Value.asString (ms.lookup "rotation_size") c.rotationSize ∧
      Checked.Reads 5 (Value.asInt readers) (ms.lookup "rotation_count") c.rotationCount ∧
      Checked.Reads none (Value.asOptional (Value.asMapping Value.asString))
        (ms.lookup "module_levels") c.moduleLevels := by
  simp only [LoggingConfig.check, seq_eq_ok, map_eq_ok, Field.optional_plain_iff] at h
  obtain ⟨-, _, ⟨-, _, ⟨-, _, ⟨-, _, ⟨-, _, ⟨_, hlevel, rfl⟩, hformat, rfl⟩, hfile, rfl⟩, hsize, rfl⟩,
    hcount, rfl⟩, hlevels, rfl⟩ := h
  exact ⟨hlevel, hformat, hfile, hsize, hcount, hlevels⟩

theorem reads_of_emulator {readers : Readers} {ms : List (String × Value)} {c : EmulatorConfig}
    (h : EmulatorConfig.check readers ms = .ok c) :
    Checked.Reads "https://localhost:8081" Value.asString (ms.lookup "endpoint") c.endpoint ∧
      Checked.Reads "" Value.asString (ms.lookup "key") c.key ∧
      Checked.Reads Double.one (EmulatorConfig.checkCharge readers) (ms.lookup "request_charge")
        c.charge := by
  simp only [EmulatorConfig.check, seq_eq_ok, map_eq_ok, Field.optional_plain_iff] at h
  obtain ⟨-, _, ⟨-, _, ⟨_, hendpoint, rfl⟩, hkey, rfl⟩, hcharge, rfl⟩ := h
  exact ⟨hendpoint, hkey, hcharge⟩

/-- A configuration that passes its check has every setting from its path. -/
theorem reads_of_check {readers : Readers} {ms : List (String × Value)} {c : Config}
    (h : Config.check readers ms = .ok c) (s : Setting) :
    s.Reads readers (Value.at? s.path (.obj ms)) c := by
  simp only [Config.check, seq_eq_ok, map_eq_ok, Field.optional_plain_iff] at h
  obtain ⟨-, emulator, ⟨-, logging, ⟨v, hversion, rfl⟩, hlogging, rfl⟩, hemulator, rfl⟩ := h
  cases s with
  | version =>
    rw [path, Value.at?_obj]
    cases hfound : ms.lookup "version" <;> rwa [hfound] at hversion
  | level =>
    rw [path, Value.at?_obj]
    exact reads_member hlogging (·.level) (fun _ _ h => (reads_of_logging h).1) rfl
  | format =>
    rw [path, Value.at?_obj]
    exact reads_member hlogging (·.format) (fun _ _ h => (reads_of_logging h).2.1) rfl
  | file =>
    rw [path, Value.at?_obj]
    exact reads_member hlogging (·.file) (fun _ _ h => (reads_of_logging h).2.2.1) rfl
  | rotationSize =>
    rw [path, Value.at?_obj]
    exact reads_member hlogging (·.rotationSize) (fun _ _ h => (reads_of_logging h).2.2.2.1) rfl
  | rotationCount =>
    rw [path, Value.at?_obj]
    exact reads_member hlogging (·.rotationCount) (fun _ _ h => (reads_of_logging h).2.2.2.2.1) rfl
  | moduleLevels =>
    have hlevels := reads_member hlogging (·.moduleLevels)
      (fun _ _ h => (reads_of_logging h).2.2.2.2.2) rfl
    rw [path, Value.at?_obj]
    exact (reads_mapping hlevels).1
  | moduleLevel logger =>
    have hlevels := reads_member hlogging (·.moduleLevels)
      (fun _ _ h => (reads_of_logging h).2.2.2.2.2) rfl
    have hbelow : (ms.lookup "logging").bind (Value.at? [.str "module_levels", .str logger]) =
        ((ms.lookup "logging").bind (Value.at? [.str "module_levels"])).bind
          (Value.at? [.str logger]) := by
      rw [Option.bind_assoc]
      exact congrArg _ (funext fun v => Value.at?_append v [.str "module_levels"] [.str logger])
    rw [path, Value.at?_obj, hbelow]
    exact (reads_mapping hlevels).2 logger
  | endpoint =>
    rw [path, Value.at?_obj]
    exact reads_member hemulator (·.endpoint) (fun _ _ h => (reads_of_emulator h).1) rfl
  | key =>
    rw [path, Value.at?_obj]
    exact reads_member hemulator (·.key) (fun _ _ h => (reads_of_emulator h).2.1) rfl
  | charge =>
    rw [path, Value.at?_obj]
    exact reads_member hemulator (·.charge) (fun _ _ h => (reads_of_emulator h).2.2) rfl

end Setting

/-! ## The environment -/

namespace Environment

variable {env : Environment} {settings : List (String × Value)}

theorem lookup_textMember (env : Environment) (name key other : String) (f : String → String) :
    (env.textMember name key f).lookup other =
      if other = key then (env.setting? name).map fun s => .str (f s) else none := by
  unfold textMember
  cases env.setting? name with
  | none => simp
  | some s =>
    simp only [Option.map_some, Option.toList_some, List.lookup_cons, List.lookup_nil]
    by_cases h : other = key
    · simp [h]
    · simp [h, beq_false_of_ne h]

theorem lookup_sectionOf (key other : String) (ms : List (String × Value)) :
    (sectionOf key ms).lookup other =
      if other = key ∧ ms ≠ [] then some (.obj ms) else none := by
  unfold sectionOf
  cases ms with
  | nil => simp
  | cons m ms =>
    simp only [List.isEmpty_cons, Bool.false_eq_true, if_false, List.lookup_cons, List.lookup_nil]
    by_cases h : other = key
    · simp [h]
    · simp [h, beq_false_of_ne h]

theorem map_fst_textMember (env : Environment) (name key : String) (f : String → String) :
    ((env.textMember name key f).map (·.1)).Sublist [key] := by
  unfold textMember
  cases env.setting? name <;> simp

theorem keyed_of_mem_textMember {name key : String} {f : String → String} {m : String × Value}
    (h : m ∈ env.textMember name key f) : m.2.Keyed := by
  obtain ⟨s, -, rfl⟩ := Option.map_eq_some_iff.1 (Option.mem_toList.1 h)
  exact Value.keyed_of_none rfl

theorem keyed_loggingMembers (env : Environment) : Value.Keyed (.obj env.loggingMembers) := by
  apply Value.keyed_obj
  · have hkeys : (env.loggingMembers.map (·.1)).Sublist (["level"] ++ ["format"] ++ ["file"]) := by
      rw [loggingMembers, List.map_append, List.map_append]
      exact ((map_fst_textMember ..).append (map_fst_textMember ..)).append (map_fst_textMember ..)
    exact hkeys.nodup (by decide)
  · intro m hm
    rcases List.mem_append.1 hm with hm | hm
    · rcases List.mem_append.1 hm with hm | hm
      · exact keyed_of_mem_textMember hm
      · exact keyed_of_mem_textMember hm
    · exact keyed_of_mem_textMember hm

/-- The member of the request charge, if the variable is a number or is not set. -/
theorem chargeMember?_eq {charge : List (String × Value)} (h : env.chargeMember? = some charge) :
    charge = (Setting.environment? env .charge).toList.map ("request_charge", ·) := by
  unfold chargeMember? at h
  unfold Setting.environment?
  cases hs : env.setting? "REQUEST_CHARGE" with
  | none =>
    simp only [hs, Option.some.injEq] at h
    rw [← h]
    rfl
  | some s =>
    simp only [hs, Option.map_eq_some_iff] at h
    obtain ⟨x, hx, rfl⟩ := h
    rw [Option.bind_some, hx]
    rfl

theorem members?_eq {settings : List (String × Value)} (h : env.members? = some settings) :
    ∃ emulator, settings = sectionOf "logging" env.loggingMembers ++ sectionOf "emulator" emulator ∧
      emulator = env.textMember "ENDPOINT" "endpoint" id ++ env.textMember "KEY" "key" id ++
        (Setting.environment? env .charge).toList.map ("request_charge", ·) := by
  obtain ⟨emulator, hemulator, rfl⟩ := Option.map_eq_some_iff.1 h
  obtain ⟨charge, hcharge, rfl⟩ := Option.map_eq_some_iff.1 hemulator
  exact ⟨_, rfl, by rw [chargeMember?_eq hcharge]⟩

theorem bind_lookup_sectionOf (key name : String) (ms : List (String × Value)) (below : List Key) :
    ((sectionOf key ms).lookup key).bind (Value.at? (.str name :: below)) =
      (ms.lookup name).bind (Value.at? below) := by
  rw [lookup_sectionOf]
  by_cases hms : ms = []
  · rw [hms, if_neg (by simp)]
    rfl
  · rw [if_pos ⟨rfl, hms⟩, Option.bind_some, Value.at?_obj]

theorem at?_logging (logging emulator : List (String × Value)) (name : String) (below : List Key) :
    Value.at? (.str "logging" :: .str name :: below)
        (.obj (sectionOf "logging" logging ++ sectionOf "emulator" emulator)) =
      (logging.lookup name).bind (Value.at? below) := by
  have hother : (sectionOf "emulator" emulator).lookup "logging" = none := by
    rw [lookup_sectionOf, if_neg (by simp)]
  rw [Value.at?_obj, List.lookup_append, hother, Option.or_none, bind_lookup_sectionOf]

theorem at?_emulator (logging emulator : List (String × Value)) (name : String)
    (below : List Key) :
    Value.at? (.str "emulator" :: .str name :: below)
        (.obj (sectionOf "logging" logging ++ sectionOf "emulator" emulator)) =
      (emulator.lookup name).bind (Value.at? below) := by
  have hother : (sectionOf "logging" logging).lookup "emulator" = none := by
    rw [lookup_sectionOf, if_neg (by simp)]
  rw [Value.at?_obj, List.lookup_append, hother, Option.none_or, bind_lookup_sectionOf]

/-- What the members of the environment have at the path of a setting is its variable. -/
theorem at?_members (h : env.members? = some settings) (s : Setting) :
    Value.at? s.path (.obj settings) = s.environment? env := by
  obtain ⟨emulator, rfl, rfl⟩ := members?_eq h
  have hleaf : ∀ found : Option Value, found.bind (Value.at? []) = found := by
    intro found
    cases found <;> rfl
  have hcharge : ∀ other : String,
      ((Setting.environment? env .charge).toList.map ("request_charge", ·)).lookup other =
        if other = "request_charge" then Setting.environment? env .charge else none := by
    intro other
    cases Setting.environment? env .charge with
    | none => simp
    | some v =>
      by_cases hother : other = "request_charge"
      · simp [hother]
      · simp [hother, List.lookup_cons, beq_false_of_ne hother]
  cases s with
  | version =>
    rw [Setting.path, Value.at?_obj, List.lookup_append, lookup_sectionOf, lookup_sectionOf,
      if_neg (by simp), if_neg (by simp)]
    rfl
  | level | format | file | rotationSize | rotationCount | moduleLevels | moduleLevel =>
    rw [Setting.path, at?_logging]
    simp [loggingMembers, List.lookup_append, lookup_textMember, hleaf, Setting.environment?]
  | endpoint | key | charge =>
    rw [Setting.path, at?_emulator, List.lookup_append, List.lookup_append, hcharge]
    simp [lookup_textMember, hleaf, Setting.environment?]

theorem keyed_emulator (env : Environment) (found : Option Value) (hfound : ∀ v ∈ found, v.Keyed) :
    Value.Keyed (.obj (env.textMember "ENDPOINT" "endpoint" id ++ env.textMember "KEY" "key" id ++
      found.toList.map ("request_charge", ·))) := by
  apply Value.keyed_obj
  · have hcharge : ((found.toList.map fun v => ("request_charge", v)).map (·.1)).Sublist
        ["request_charge"] := by
      cases found <;> simp
    have hkeys : ((env.textMember "ENDPOINT" "endpoint" id ++ env.textMember "KEY" "key" id ++
        found.toList.map ("request_charge", ·)).map (·.1)).Sublist
          (["endpoint"] ++ ["key"] ++ ["request_charge"]) := by
      rw [List.map_append, List.map_append]
      exact ((map_fst_textMember ..).append (map_fst_textMember ..)).append hcharge
    exact hkeys.nodup (by decide)
  · intro m hm
    rcases List.mem_append.1 hm with hm | hm
    · rcases List.mem_append.1 hm with hm | hm
      · exact keyed_of_mem_textMember hm
      · exact keyed_of_mem_textMember hm
    · obtain ⟨v, hv, rfl⟩ := List.mem_map.1 hm
      exact hfound v (Option.mem_toList.1 hv)

theorem isMapping_of_lookup (h : env.members? = some settings) {name : String} {w : Value}
    (hw : settings.lookup name = some w) : w.isMapping = true := by
  obtain ⟨emulator, rfl, -⟩ := members?_eq h
  rw [List.lookup_append, lookup_sectionOf, lookup_sectionOf] at hw
  rcases Option.or_eq_some_iff.1 hw with hw | ⟨-, hw⟩
  · obtain ⟨-, hobj⟩ := Option.ite_none_right_eq_some.1 hw
    cases hobj
    rfl
  · obtain ⟨-, hobj⟩ := Option.ite_none_right_eq_some.1 hw
    cases hobj
    rfl

/-- The members of the environment have mappings on the way to every setting. -/
theorem open_members (h : env.members? = some settings) (s : Setting) :
    Value.Open (.obj settings) s.path := by
  intro first w key rest hpath hw
  -- a path has three keys at most, and then it leads to the level of a logger
  rcases first with _ | ⟨outer, _ | ⟨inner, first⟩⟩
  · cases hw
    rfl
  · obtain ⟨name, rfl⟩ : ∃ name, outer = .str name := by
      cases s <;> exact ⟨_, (List.cons.inj hpath).1.symm⟩
    rw [Value.at?_obj] at hw
    obtain ⟨v, hv, hw⟩ := Option.bind_eq_some_iff.1 hw
    cases hw
    exact isMapping_of_lookup h hv
  · have hlong : 3 + (first.length + rest.length) = s.path.length := by
      rw [hpath]
      simp only [List.length_cons, List.length_append]
      omega
    cases s with
    | moduleLevel logger =>
      have hfirst : first = [] := by
        rw [← List.length_eq_zero_iff]
        simp only [Setting.path, List.length_cons, List.length_nil] at hlong
        omega
      subst hfirst
      cases hpath
      rw [show [Key.str "logging", .str "module_levels"] = Setting.moduleLevels.path from rfl,
        at?_members h] at hw
      cases hw
    | _ =>
      have hshort : 3 ≤ _ := Nat.le.intro hlong
      exact absurd hshort (by decide)

/-- The members of the environment stand under distinct keys. -/
theorem keyed_members (h : env.members? = some settings) : Value.Keyed (.obj settings) := by
  obtain ⟨emulator, rfl, rfl⟩ := members?_eq h
  have hcharge : ∀ v ∈ Setting.environment? env .charge, v.Keyed := by
    intro v hv
    obtain ⟨s, -, hs⟩ := Option.bind_eq_some_iff.1 hv
    obtain ⟨x, -, rfl⟩ := Option.map_eq_some_iff.1 hs
    exact Value.keyed_of_none rfl
  apply Value.keyed_obj
  · have hkeys : ∀ (key : String) (ms : List (String × Value)),
        ((sectionOf key ms).map (·.1)).Sublist [key] := by
      intro key ms
      unfold sectionOf
      split <;> simp
    rw [List.map_append]
    exact ((hkeys "logging" _).append (hkeys "emulator" _)).nodup (by decide)
  · have hsection : ∀ (key : String) (ms : List (String × Value)), Value.Keyed (.obj ms) →
        ∀ m ∈ sectionOf key ms, m.2.Keyed := by
      intro key ms hms m hm
      unfold sectionOf at hm
      split at hm
      · cases hm
      · rwa [List.mem_singleton.1 hm]
    intro m hm
    rcases List.mem_append.1 hm with hm | hm
    · exact hsection _ _ (keyed_loggingMembers env) m hm
    · exact hsection _ _ (keyed_emulator env _ hcharge) m hm

end Environment

/-! ## Loads -/

theorem LoadRequest.merged?_eq_ok {request : LoadRequest} {readers : Readers} {files : Files}
    {env : Environment} {v : Value} (h : request.merged? readers files env = .ok v) :
    ∃ base settings, Loader.readBase readers files request.path? = .ok base ∧ base.isMapping = true ∧
      env.members? = some settings ∧
      v = Value.putOver (some (Value.putOver (some base) (.obj settings)))
        (.obj request.overrides) := by
  unfold merged? at h
  cases hbase : Loader.readBase readers files request.path? with
  | error e =>
    simp only [hbase] at h
    contradiction
  | ok base =>
    cases hsettings : env.members? with
    | none =>
      simp only [hbase, hsettings] at h
      contradiction
    | some settings =>
      cases herror : Loader.baseError? base with
      | some e =>
        simp only [hbase, hsettings, herror] at h
        contradiction
      | none =>
        simp only [hbase, hsettings, herror, Except.ok.injEq] at h
        refine ⟨base, settings, rfl, ?_, rfl, h.symm⟩
        cases base with
        | obj ms => rfl
        | foreign leaf =>
          cases leaf with
          | mapping entries => rfl
          | missing | object => cases herror
        | _ => cases herror

namespace Setting

variable {request : LoadRequest} {readers : Readers} {files : Files} {env : Environment} {c : Config}

/-- A configuration that is put together and passes its check has every setting from the first of
the overrides, the environment and the file that has something at its path. -/
theorem reads_of_checked (h : request.checked? readers files env = .ok c)
    (hkeyed : Value.Keyed (.obj request.overrides)) :
    ∃ base, Loader.readBase readers files request.path? = .ok base ∧ base.isMapping = true ∧
      ∀ s : Setting, Value.Open (.obj request.overrides) s.path →
        s.Reads readers ((Value.at? s.path (.obj request.overrides)).or
          ((s.environment? env).or (base.at? s.path))) c := by
  obtain ⟨v, hmerged, hvalid⟩ : ∃ v, request.merged? readers files env = .ok v ∧
      Loader.validate readers v = .ok c := by
    unfold LoadRequest.checked? at h
    cases hmerged : request.merged? readers files env with
    | error e =>
      rw [hmerged] at h
      contradiction
    | ok v =>
      rw [hmerged] at h
      exact ⟨v, rfl, h⟩
  obtain ⟨base, settings, hbase, hmapping, hsettings, hv⟩ := LoadRequest.merged?_eq_ok hmerged
  refine ⟨base, hbase, hmapping, fun s hopen => ?_⟩
  obtain ⟨ms, hms, hcheck⟩ : ∃ ms, v = .obj ms ∧ Config.check readers ms = .ok c := by
    cases v with
    | obj ms =>
      refine ⟨ms, rfl, ?_⟩
      simp only [Loader.validate] at hvalid
      cases hchecked : Config.check readers ms with
      | ok c' =>
        rw [hchecked] at hvalid
        cases hvalid
        rfl
      | issues list =>
        rw [hchecked] at hvalid
        cases hvalid
    | _ => cases hvalid
  have hreads := reads_of_check hcheck s
  rw [← hms, hv, Value.at?_putOver_of_open hkeyed hopen, Option.bind_some,
    Value.at?_putOver_of_open (Environment.keyed_members hsettings)
      (Environment.open_members hsettings s), Option.bind_some,
    Environment.at?_members hsettings] at hreads
  exact reads_or_or hreads

end Setting

namespace Loader

/-- What a merge has at every path, and where a successful load takes every setting from: from the
overrides if they have something at its path, else from its variable of the environment, else from
the file, else it is the default.  The keys of the overrides are distinct wherever they have a
mapping, and what they have on the way to the setting are mappings. -/
theorem load_precedence :
    (∀ base upper : Value, upper.Keyed → ∀ path,
      Value.MergedAt base upper (Value.putOver (some base) upper) path) ∧
    ∀ (readers : Readers) (l : Loader) (files : Files) (env : Environment) (request : LoadRequest)
      (c : Config),
      Value.Keyed (.obj request.overrides) → (l.load readers files env request).result = .ok c →
      ∃ base, readBase readers files request.path? = .ok base ∧ base.isMapping = true ∧
        ∀ s : Setting, Value.Open (.obj request.overrides) s.path →
          s.Reads readers ((Value.at? s.path (.obj request.overrides)).or
            ((s.environment? env).or (base.at? s.path))) c := by
  constructor
  · intro base upper hkeyed path
    exact Value.mergedAt_putOver hkeyed base path
  · intro readers l files env request c hkeyed hload
    exact Setting.reads_of_checked (checked?_of_load hload) hkeyed

/-- The level is given by the environment, and the key by the environment and the overrides. -/
theorem load_precedence_level_key :
    let env : Environment := [("LOCALCOSMOS_LOG_LEVEL", "debug"), ("LOCALCOSMOS_KEY", "a")]
    let request : LoadRequest := { overrides := [("emulator", .obj [("key", .str "b")])] }
    let c : Config := { logging := { level := some .debug }, emulator := { key := "b" } }
    Value.Keyed (.obj request.overrides) ∧ (load .plain {} [] env request).result = .ok c ∧
      Value.Open (.obj request.overrides) Setting.level.path ∧
      Setting.level.Reads .plain (some (.str "DEBUG")) c ∧
      Value.Open (.obj request.overrides) Setting.key.path ∧
      Setting.key.Reads .plain (some (.str "b")) c ∧
      Value.at? [.str "emulator", .str "url"] (Value.putOver
        (some (.obj [("emulator", .obj [("url", .str "u")])])) (.obj request.overrides)) =
        some (.str "u") := by
  intro env request c
  have hkeyed : Value.Keyed (.obj request.overrides) := by
    apply Value.keyed_obj (by decide)
    intro m hm
    rw [List.mem_singleton.1 hm]
    apply Value.keyed_obj (by decide)
    intro m hm
    rw [List.mem_singleton.1 hm]
    exact Value.keyed_of_none rfl
  have hload : (load .plain {} [] env request).result = .ok c := by decide +kernel
  have hlevel : Value.Open (.obj request.overrides) Setting.level.path := by
    apply Value.open_pair rfl
    intro w hw
    cases hw
  have hkey : Value.Open (.obj request.overrides) Setting.key.path := by
    apply Value.open_pair rfl
    intro w hw
    cases hw
    rfl
  obtain ⟨hmerge, hread⟩ := load_precedence
  obtain ⟨base, hbase, -, hsettings⟩ := hread .plain {} [] env request c hkeyed hload
  refine ⟨hkeyed, hload, hlevel, ?_, hkey, ?_, ?_⟩
  · exact hsettings .level hlevel
  · exact hsettings .key hkey
  · exact (hmerge _ _ hkeyed _).absent [.str "emulator"] _ (.str "url") [] rfl rfl rfl rfl

end Loader

end Pigeonhole
