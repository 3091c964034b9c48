import Pigeonhole.Proofs.Config.Failure
import Pigeonhole.Proofs.Config.Precedence

/-!
# The account key is not shown

Hiding the account key in everything that a configuration is loaded from hides it in the
configuration and changes nothing else (`Loader.validate_hideKey`): the merges put together what is
hidden in the same way (`Value.merges_change`), and the check reads every other field as before.
What is shown of a configuration hides the key again, so loads whose sources differ in nothing but
keys show the same (`Loader.load_sameButKey`).
-/

namespace Pigeonhole

/-! ## Changes below a path -/

namespace Key

variable {α β : Type} {entries : List (Key × α)}

/-- Whether a function of keys is the same for keys that lead to one entry. -/
def Respects (f : Key → β) : Prop := ∀ a b : Key, a.same b = true → f a = f b

/-- Entries whose values have been changed one by one. -/
def mapValues (f : Key → α → β) (entries : List (Key × α)) : List (Key × β) :=
  entries.map fun entry => (entry.1, f entry.1 entry.2)

theorem mapValues_cons (f : Key → α → β) (key : Key) (value : α) (rest : List (Key × α)) :
    mapValues f ((key, value) :: rest) = (key, f key value) :: mapValues f rest := rfl

theorem lookup_mapValues {f : Key → α → β} (hf : Respects f) (key : Key)
    (entries : List (Key × α)) :
    lookup key (mapValues f entries) = (lookup key entries).map (f key) := by
  induction entries with
  | nil => rfl
  | cons entry rest ih =>
    obtain ⟨other, value⟩ := entry
    rw [mapValues_cons, lookup_cons, lookup_cons, ih]
    by_cases h : other.same key = true
    · rw [if_pos h, if_pos h, hf other key h]
      rfl
    · rw [if_neg h, if_neg h]

theorem mapValues_assign {f : Key → α → β} (hf : Respects f) (key : Key) (value : α)
    (entries : List (Key × α)) :
    mapValues f (assign key value entries) = assign key (f key value) (mapValues f entries) := by
  induction entries with
  | nil => rfl
  | cons entry rest ih =>
    obtain ⟨other, old⟩ := entry
    rw [assign, mapValues_cons, assign]
    by_cases h : other.same key = true
    · rw [if_pos h, if_pos h, mapValues_cons, hf other key h]
    · rw [if_neg h, if_neg h, mapValues_cons, ih]

theorem stringEntries_mapValues (f : Key → α → β) (entries : List (Key × α)) :
    stringEntries (mapValues f entries) =
      (stringEntries entries).map fun m => (m.1, f (.str m.1) m.2) := by
  induction entries with
  | nil => rfl
  | cons entry rest ih =>
    obtain ⟨key, value⟩ := entry
    cases key with
    | str s => exact congrArg ((s, f (.str s) value) :: ·) ih
    | _ => exact ih

end Key

namespace Value

variable {g : Value → Value} {f : Key → Value → Value} {base? : Option Value} {v : Value}

/-- A value with what it has under its keys changed, if it is a mapping. -/
def mapEntries (f : Key → Value → Value) : Value → Value
  | .obj ms => .obj (ms.map fun m => (m.1, f (.str m.1) m.2))
  | .foreign (.mapping entries) => .foreign (.mapping (Key.mapValues f entries))
  | v => v

/-- A value with what it has at a path of names changed. -/
def change (g : Value → Value) : List String → Value → Value
  | [], v => g v
  | name :: path, v => v.mapEntries fun key w => if key = .str name then change g path w else w

theorem entries?_mapEntries (f : Key → Value → Value) (v : Value) :
    (v.mapEntries f).entries? = v.entries?.map (Key.mapValues f) := by
  cases v with
  | obj ms =>
    show some (Key.ofMembers (ms.map _)) = some (Key.mapValues f (Key.ofMembers ms))
    rw [Key.mapValues, Key.ofMembers, Key.ofMembers, List.map_map, List.map_map]
    rfl
  | foreign leaf => cases leaf <;> rfl
  | _ => rfl

theorem mapEntries_ofEntries (f : Key → Value → Value) (entries : List (Key × Value)) :
    (ofEntries entries).mapEntries f = ofEntries (Key.mapValues f entries) := by
  have hlength : ((Key.stringEntries (Key.mapValues f entries)).length =
      (Key.mapValues f entries).length) =
        ((Key.stringEntries entries).length = entries.length) := by
    rw [Key.stringEntries_mapValues, List.length_map, Key.mapValues, List.length_map]
  unfold ofEntries
  simp only [hlength]
  split
  · rw [mapEntries, Key.stringEntries_mapValues]
  · rfl

theorem members?_mapEntries (f : Key → Value → Value) (v : Value) :
    (v.mapEntries f).members? =
      v.members?.map (List.map fun m => (m.1, f (.str m.1) m.2)) := by
  rw [members?_eq, members?_eq, entries?_mapEntries, Option.map_map, Option.map_map]
  congr 1
  funext entries
  exact Key.stringEntries_mapValues f entries

/-- Whether a change of values before a merge changes the merge in the same way. -/
def Merges (g : Value → Value) : Prop :=
  ∀ (base? : Option Value) (v : Value), g (putOver base? v) = putOver (base?.map g) (g v)

/-- A change that leaves mappings as they are and makes none. -/
structure OnLeaves (g : Value → Value) : Prop where
  mapping : ∀ v, v.isMapping = true → g v = v
  leaf : ∀ v, v.isMapping = false → (g v).isMapping = false

theorem OnLeaves.entries? (h : OnLeaves g) (v : Value) : (g v).entries? = v.entries? := by
  cases hv : v.isMapping with
  | true => rw [h.mapping v hv]
  | false =>
    rw [entries?_of_isMapping_eq_false hv, entries?_of_isMapping_eq_false (h.leaf v hv)]

theorem putOver_congr {a? b? : Option Value} (h : a?.bind entries? = b?.bind entries?)
    (v : Value) : putOver a? v = putOver b? v := by
  cases v with
  | obj ms => simp only [putOver, h]
  | foreign leaf => cases leaf <;> simp only [putOver, putForeignOver, h]
  | _ => simp only [putOver]

theorem OnLeaves.merges (h : OnLeaves g) : Merges g := by
  intro base? v
  cases hv : v.isMapping with
  | true =>
    have hbase : (base?.map g).bind Value.entries? = base?.bind Value.entries? := by
      cases base? with
      | none => rfl
      | some base => exact h.entries? base
    rw [h.mapping v hv, h.mapping _ ((isMapping_putOver base? v).trans hv), putOver_congr hbase]
  | false =>
    rw [putOver_of_not_mapping (entries?_of_isMapping_eq_false hv),
      putOver_of_not_mapping (entries?_of_isMapping_eq_false (h.leaf v hv))]

theorem merges_id : Merges id := by
  intro base? v
  rw [Option.map_id]
  rfl

theorem mapValues_mergeEntries (hf : Key.Respects f) (hmerges : ∀ key, Merges (f key))
    (entries upper : List (Key × Value)) :
    Key.mapValues f (mergeEntries entries upper) =
      mergeEntries (Key.mapValues f entries) (Key.mapValues f upper) := by
  induction upper generalizing entries with
  | nil => rw [mergeEntries, Key.mapValues, Key.mapValues, List.map_nil, mergeEntries]
  | cons entry rest ih =>
    obtain ⟨key, v⟩ := entry
    rw [mergeEntries, ih, Key.mapValues_cons, mergeEntries, Key.mapValues_assign hf,
      hmerges key, Key.lookup_mapValues hf]

theorem merges_mapEntries (hf : Key.Respects f) (hmerges : ∀ key, Merges (f key)) :
    Merges (mapEntries f) := by
  intro base? v
  have hover : (base?.map (mapEntries f)).bind entries? =
      (base?.bind entries?).map (Key.mapValues f) := by
    cases base? with
    | none => rfl
    | some base => exact entries?_mapEntries f base
  cases hbase : base?.bind entries? with
  | none =>
    rw [hbase] at hover
    rw [putOver_of_base_not_mapping hbase, putOver_of_base_not_mapping hover]
  | some entries =>
    rw [hbase] at hover
    cases hv : v.entries? with
    | none =>
      have hnone : (v.mapEntries f).entries? = none := by rw [entries?_mapEntries, hv]; rfl
      rw [putOver_of_not_mapping hv, putOver_of_not_mapping hnone]
    | some upper =>
      have hsome : (v.mapEntries f).entries? = some (Key.mapValues f upper) := by
        rw [entries?_mapEntries, hv]
        rfl
      rw [putOver_eq_ofEntries hbase hv, putOver_eq_ofEntries hover hsome, mapEntries_ofEntries,
        mapValues_mergeEntries hf hmerges]

theorem respects_eq_str {β : Type} (name : String) (a b : β) :
    Key.Respects fun key => if key = .str name then a else b := by
  intro key other hsame
  have hiff : key = .str name ↔ other = .str name := by
    rw [Key.same_iff] at hsame
    rw [← beq_iff_eq, ← Key.same_str, Key.same_iff, hsame, ← Key.same_iff, Key.same_str,
      beq_iff_eq]
  simp only [hiff]

theorem merges_change (hg : OnLeaves g) (path : List String) : Merges (change g path) := by
  induction path with
  | nil => exact hg.merges
  | cons name path ih =>
    have hmerges : Merges (mapEntries fun key =>
        if key = .str name then change g path else id) := by
      apply merges_mapEntries (respects_eq_str name _ _)
      intro key
      split
      · exact ih
      · exact merges_id
    have hchange : change g (name :: path) =
        mapEntries fun key => if key = .str name then change g path else id := by
      funext v
      rw [change]
      congr 1
      funext key w
      split <;> rfl
    rwa [hchange]

/-! ## Members -/

/-- Members with the value under a name changed. -/
def changeMember (g : Value → Value) (name : String) (ms : List (String × Value)) :
    List (String × Value) :=
  ms.map fun m => (m.1, if m.1 = name then g m.2 else m.2)

theorem lookup_changeMember (g : Value → Value) (name : String) (ms : List (String × Value)) :
    (changeMember g name ms).lookup name = (ms.lookup name).map g := by
  induction ms with
  | nil => rfl
  | cons m rest ih =>
    obtain ⟨key, v⟩ := m
    show ((key, if key = name then g v else v) :: changeMember g name rest).lookup name = _
    rw [List.lookup_cons, List.lookup_cons, ih]
    by_cases h : key = name
    · simp [h]
    · simp [beq_false_of_ne (Ne.symm h)]

theorem lookup_changeMember_of_ne {name other : String} (h : other ≠ name) (g : Value → Value)
    (ms : List (String × Value)) : (changeMember g name ms).lookup other = ms.lookup other := by
  induction ms with
  | nil => rfl
  | cons m rest ih =>
    obtain ⟨key, v⟩ := m
    show ((key, if key = name then g v else v) :: changeMember g name rest).lookup other = _
    rw [List.lookup_cons, List.lookup_cons, ih]
    by_cases hkey : key = name
    · simp [beq_false_of_ne (hkey ▸ h)]
    · rw [if_neg hkey]

theorem change_obj (g : Value → Value) (name : String) (path : List String)
    (ms : List (String × Value)) :
    change g (name :: path) (.obj ms) = .obj (changeMember (change g path) name ms) := by
  simp only [change, mapEntries, changeMember, Key.str.injEq]

theorem members?_change (g : Value → Value) (name : String) (path : List String) (v : Value) :
    (change g (name :: path) v).members? =
      v.members?.map (changeMember (change g path) name) := by
  rw [change, members?_mapEntries]
  simp only [Key.str.injEq]
  rfl

theorem change_change (g h : Value → Value) (path : List String) (v : Value) :
    change g path (change h path v) = change (g ∘ h) path v := by
  induction path generalizing v with
  | nil => rfl
  | cons name path ih =>
    have hvalue : ∀ (key : Key) (w : Value),
        (if key = .str name then change g path (if key = .str name then change h path w else w)
          else if key = .str name then change h path w else w) =
          if key = .str name then change (g ∘ h) path w else w := by
      intro key w
      by_cases hkey : key = .str name
      · simp only [if_pos hkey, ih]
      · simp only [if_neg hkey]
    cases v with
    | obj ms =>
      simp only [change, mapEntries, List.map_map, Function.comp_def, hvalue]
    | foreign leaf =>
      cases leaf with
      | mapping entries =>
        simp only [change, mapEntries, Key.mapValues, List.map_map, Function.comp_def, hvalue]
      | missing | object => rfl
    | _ => rfl

/-! ## The account key -/

/-- Another text in place of a string that is not empty. -/
def replaceText (text : String) : Value → Value
  | .str s => .str (if s.isEmpty then s else text)
  | v => v

theorem onLeaves_replaceText (text : String) : OnLeaves (replaceText text) where
  mapping v hv := by
    cases v with
    | str s => cases hv
    | _ => rfl
  leaf v hv := by
    cases v with
    | str s => rfl
    | _ => exact hv

/-- A value with another text in place of an account key that is not empty. -/
def withKey (text : String) : Value → Value := change (replaceText text) ["emulator", "key"]

/-- A value with the account key hidden, if there is one. -/
def hideKey : Value → Value := withKey (String.ofList Log.redacted)

/-- Whether two values differ in nothing but account keys that are not empty. -/
def SameButKey (v w : Value) : Prop := v.hideKey = w.hideKey

theorem sameButKey_withKey {text : String} (h : text ≠ "") (v : Value) :
    v.SameButKey (v.withKey text) := by
  have hleaf : replaceText (String.ofList Log.redacted) ∘ replaceText text =
      replaceText (String.ofList Log.redacted) := by
    funext v
    cases v with
    | str s => by_cases hs : s = "" <;> simp [replaceText, hs, h]
    | _ => rfl
  rw [SameButKey, hideKey, withKey, withKey, change_change, hleaf]

theorem merges_hideKey : Merges hideKey := merges_change (onLeaves_replaceText _) _

end Value

/-! ## Checks -/

namespace Field

variable {α : Type} {key : String} {check : Value → Checked α} {ms other : List (String × Value)}

theorem optional_plain_congr {default : α} (h : other.lookup key = ms.lookup key) :
    (plain key).optional default check other = (plain key).optional default check ms := by
  simp only [optional, find?, plain, h]

/-- A field whose value is changed is read as before, but for a change of what is read. -/
theorem optional_plain_map (default : α) {g : Value → Value} {read : α → α}
    (hlookup : other.lookup key = (ms.lookup key).map g)
    (hcheck : ∀ v, check (g v) = (check v).map read) (hdefault : read default = default) :
    (plain key).optional default check other =
      ((plain key).optional default check ms).map read := by
  cases hms : ms.lookup key with
  | none =>
    rw [hms] at hlookup
    rw [optional_of_none hlookup hlookup, optional_of_none hms hms, Checked.map, hdefault]
  | some v =>
    rw [hms] at hlookup
    rw [optional_of_lookup hlookup, optional_of_lookup hms, hcheck]
    cases check v <;> rfl

end Field

theorem Value.asString_replaceText (text : String) (v : Value) :
    asString (replaceText text v) = (asString v).map fun s => if s.isEmpty then s else text := by
  cases v <;> rfl

namespace EmulatorConfig

theorem masked_mk (endpoint key : String) (charge : Double) :
    masked ⟨endpoint, key, charge⟩ =
      ⟨endpoint, if key.isEmpty then key else String.ofList Log.redacted, charge⟩ := by
  unfold masked
  split <;> rfl

theorem masked_masked (c : EmulatorConfig) : c.masked.masked = c.masked := by
  obtain ⟨endpoint, key, charge⟩ := c
  rw [masked_mk, masked_mk]
  by_cases h : key.isEmpty <;> simp [h]

theorem check_hidden (readers : Readers) (ms : List (String × Value)) :
    check readers (Value.changeMember (Value.replaceText (String.ofList Log.redacted)) "key" ms) =
      (check readers ms).map masked := by
  have hkey := Field.optional_plain_map ""
    (Value.lookup_changeMember (Value.replaceText (String.ofList Log.redacted)) "key" ms)
    (Value.asString_replaceText (String.ofList Log.redacted)) rfl
  unfold check
  rw [hkey, Field.optional_plain_congr (Value.lookup_changeMember_of_ne (by decide) _ ms),
    Field.optional_plain_congr (Value.lookup_changeMember_of_ne (by decide) _ ms)]
  cases (Field.plain "endpoint").optional "https://localhost:8081" Value.asString ms <;>
    cases (Field.plain "key").optional "" Value.asString ms <;>
      cases (Field.plain "request_charge").optional Double.one (checkCharge readers) ms
  case ok.ok.ok endpoint key charge => exact congrArg Checked.ok (masked_mk endpoint key charge).symm
  all_goals rfl

theorem asModel_check_hidden (readers : Readers) (v : Value) :
    Value.asModel (check readers)
        (Value.change (Value.replaceText (String.ofList Log.redacted)) ["key"] v) =
      (Value.asModel (check readers) v).map masked := by
  rw [Value.asModel, Value.asModel, Value.members?_change]
  cases v.members? with
  | none => rfl
  | some ms => exact check_hidden readers ms

end EmulatorConfig

namespace Config

theorem masked_masked (c : Config) : c.masked.masked = c.masked := by
  rw [masked, masked, EmulatorConfig.masked_masked]

theorem isShowable_masked (c : Config) : c.masked.isShowable = c.isShowable := rfl

theorem shown_masked (c : Config) : c.masked.shown = c.shown := by
  rw [shown, shown, masked_masked]

/-- Two configurations that are shown alike differ in nothing but their keys. -/
theorem eq_but_key {c c' : Config} (h : c.masked = c'.masked) :
    c' = { c with emulator := { c.emulator with key := c'.emulator.key } } := by
  obtain ⟨version, logging, endpoint, key, charge⟩ := c
  obtain ⟨version', logging', endpoint', key', charge'⟩ := c'
  simp only [masked, EmulatorConfig.masked_mk, Config.mk.injEq, EmulatorConfig.mk.injEq] at h ⊢
  obtain ⟨hversion, hlogging, hendpoint, -, hcharge⟩ := h
  exact ⟨hversion.symm, hlogging.symm, hendpoint.symm, trivial, hcharge.symm⟩

theorem check_hidden (readers : Readers) (ms : List (String × Value)) :
    check readers (Value.changeMember
      (Value.change (Value.replaceText (String.ofList Log.redacted)) ["key"]) "emulator" ms) =
        (check readers ms).map masked := by
  have hemulator := Field.optional_plain_map {}
    (Value.lookup_changeMember
      (Value.change (Value.replaceText (String.ofList Log.redacted)) ["key"]) "emulator" ms)
    (EmulatorConfig.asModel_check_hidden readers) rfl
  unfold check
  rw [hemulator, Field.optional_plain_congr (Value.lookup_changeMember_of_ne (by decide) _ ms),
    Field.optional_plain_congr (Value.lookup_changeMember_of_ne (by decide) _ ms)]
  cases (Field.plain "version").optional "0.1.0" checkVersion ms <;>
    cases (Field.plain "logging").optional {} (Value.asModel (LoggingConfig.check readers)) ms <;>
      cases (Field.plain "emulator").optional {} (Value.asModel (EmulatorConfig.check readers)) ms <;>
        rfl

end Config

/-! ## The environment -/

namespace Environment

variable {env env' : Environment}

/-- Whether two environments differ in nothing but account keys that are not empty. -/
structure SameButKey (env env' : Environment) : Prop where
  others : ∀ name ≠ "KEY", env.setting? name = env'.setting? name
  key : (env.setting? "KEY").isSome = (env'.setting? "KEY").isSome

theorem SameButKey.textMember (h : env.SameButKey env') {name : String} (hname : name ≠ "KEY")
    (key : String) (f : String → String) :
    env.textMember name key f = env'.textMember name key f := by
  rw [Environment.textMember, Environment.textMember, h.others name hname]

theorem SameButKey.loggingMembers (h : env.SameButKey env') :
    env.loggingMembers = env'.loggingMembers := by
  rw [Environment.loggingMembers, Environment.loggingMembers, h.textMember (by decide),
    h.textMember (by decide), h.textMember (by decide)]

theorem SameButKey.chargeMember? (h : env.SameButKey env') :
    env.chargeMember? = env'.chargeMember? := by
  rw [Environment.chargeMember?, Environment.chargeMember?, h.others "REQUEST_CHARGE" (by decide)]

theorem stem_append_inj {name other : String} (h : stem ++ name = stem ++ other) :
    name = other := by
  have htexts := congrArg String.toList h
  rw [String.toList_append, String.toList_append] at htexts
  exact String.toList_injective (List.append_cancel_left htexts)

/-- The account key as a hidden member. -/
theorem hidden_keyMember (env : Environment) :
    Value.changeMember (Value.replaceText (String.ofList Log.redacted)) "key"
        (env.textMember "KEY" "key" id) =
      if (env.setting? "KEY").isSome then [("key", .str (String.ofList Log.redacted))] else [] := by
  unfold textMember
  cases hkey : env.setting? "KEY" with
  | none => rfl
  | some s =>
    have hs : s ≠ "" := by simpa using (Option.filter_eq_some_iff.1 hkey).2
    simp [Value.changeMember, Value.replaceText, hs]

theorem hideKey_sections (logging emulator : List (String × Value)) :
    Value.hideKey (.obj (sectionOf "logging" logging ++ sectionOf "emulator" emulator)) =
      .obj (sectionOf "logging" logging ++ sectionOf "emulator"
        (Value.changeMember (Value.replaceText (String.ofList Log.redacted)) "key" emulator)) := by
  rw [Value.hideKey, Value.withKey, Value.change_obj, Value.changeMember, List.map_append]
  congr 2
  · unfold sectionOf
    split <;> rfl
  · cases emulator with
    | nil => rfl
    | cons m rest => simp [sectionOf, Value.change, Value.mapEntries, Value.changeMember]

/-- What environments that differ in account keys alone set is the same once these are hidden. -/
theorem SameButKey.members? (h : env.SameButKey env') :
    env.members?.map (fun ms => Value.hideKey (.obj ms)) =
      env'.members?.map (fun ms => Value.hideKey (.obj ms)) := by
  have hkey : ∀ charge : List (String × Value),
      Value.changeMember (Value.replaceText (String.ofList Log.redacted)) "key"
          (env.textMember "ENDPOINT" "endpoint" id ++ env.textMember "KEY" "key" id ++ charge) =
        Value.changeMember (Value.replaceText (String.ofList Log.redacted)) "key"
          (env'.textMember "ENDPOINT" "endpoint" id ++ env'.textMember "KEY" "key" id ++ charge) := by
    intro charge
    have hhidden := hidden_keyMember env
    rw [h.key, ← hidden_keyMember env'] at hhidden
    simp only [Value.changeMember, List.map_append] at hhidden ⊢
    rw [hhidden, h.textMember (by decide)]
  rw [Environment.members?, Environment.members?, emulatorMembers?, emulatorMembers?,
    h.loggingMembers, h.chargeMember?]
  cases env'.chargeMember? with
  | none => rfl
  | some charge =>
    simp only [Option.map_some, hideKey_sections, hkey]

end Environment

/-! ## Loads -/

namespace Value

theorem length_of_sameButKey {ms other : List (String × Value)}
    (h : SameButKey (.obj ms) (.obj other)) : ms.length = other.length := by
  rw [SameButKey, hideKey, withKey, change_obj, change_obj, Tree.obj.injEq] at h
  simpa [changeMember] using congrArg List.length h

end Value

namespace Loader

variable {readers : Readers} {files files' : Files} {env env' : Environment}
  {request request' : LoadRequest}

/-- Hiding the account key before the check hides it in the configuration and changes nothing
else. -/
theorem validate_hideKey (readers : Readers) (v : Value) :
    validate readers v.hideKey = (validate readers v).map Config.masked := by
  cases v with
  | obj ms =>
    rw [Value.hideKey, Value.withKey, Value.change_obj, validate, validate, Config.check_hidden]
    cases Config.check readers ms <;> rfl
  | foreign leaf => cases leaf <;> rfl
  | _ => rfl

theorem baseError?_hideKey (v : Value) : baseError? v.hideKey = baseError? v := by
  cases v with
  | foreign leaf => cases leaf <;> rfl
  | _ => rfl

theorem announced_masked (c : Config) : announced c.masked = (announced c).map Config.masked := by
  rw [announced, announced, Config.isShowable_masked]
  split <;> rfl

/-- The records of a check are the same once the key is hidden. -/
theorem validationRecords_masked (checked : Except LoadError Config) :
    validationRecords (checked.map Config.masked) = validationRecords checked := by
  cases checked with
  | ok c =>
    rw [Except.map, validationRecords, validationRecords, Config.isShowable_masked,
      Config.shown_masked]
  | error e => cases e <;> rfl

/-- Whether the sources of two loads differ in nothing but account keys that are not empty. -/
structure SameButKey (readers : Readers) (files files' : Files) (env env' : Environment)
    (request request' : LoadRequest) : Prop where
  file : request.file = request'.file
  base : (readBase readers files request.path?).map Value.hideKey =
    (readBase readers files' request'.path?).map Value.hideKey
  environment : env.SameButKey env'
  overrides : Value.SameButKey (.obj request.overrides) (.obj request'.overrides)

theorem appliedRecords_congr {ms other : List (String × Value)} (h : ms.length = other.length)
    (kind : String) : appliedRecords kind ms = appliedRecords kind other := by
  have hempty : ms.isEmpty = other.isEmpty := by
    rw [Bool.eq_iff_iff, List.isEmpty_iff_length_eq_zero, List.isEmpty_iff_length_eq_zero, h]
  rw [appliedRecords, appliedRecords, hempty, h]

/-- The merges of what differs in account keys alone pass the check alike. -/
theorem assemble_sameButKey (readers : Readers) (l l' : Loader) (records : List Log.Record)
    {base base' : Value} {settings settings' overrides overrides' : List (String × Value)}
    (hbase : base.SameButKey base') (hsettings : Value.SameButKey (.obj settings) (.obj settings'))
    (hoverrides : Value.SameButKey (.obj overrides) (.obj overrides')) :
    let loaded := l.assemble readers records base settings overrides
    let loaded' := l'.assemble readers records base' settings' overrides'
    loaded.records = loaded'.records ∧
      loaded.result.map Config.masked = loaded'.result.map Config.masked := by
  have hchecked :
      (validate readers
          (.putOver (some (.putOver (some base) (.obj settings))) (.obj overrides))).map Config.masked =
        (validate readers
          (.putOver (some (.putOver (some base') (.obj settings'))) (.obj overrides'))).map
            Config.masked := by
    simp only [← validate_hideKey, Value.merges_hideKey _ _, Option.map_some,
      show base.hideKey = base'.hideKey from hbase,
      show Value.hideKey (.obj settings) = Value.hideKey (.obj settings') from hsettings,
      show Value.hideKey (.obj overrides) = Value.hideKey (.obj overrides') from hoverrides]
  have hresult : ∀ checked : Except LoadError Config,
      (checked.bind announced).map Config.masked = (checked.map Config.masked).bind announced := by
    intro checked
    cases checked with
    | ok c => exact (announced_masked c).symm
    | error e => rfl
  constructor
  · simp only [assemble]
    rw [appliedRecords_congr (Value.length_of_sameButKey hsettings),
      appliedRecords_congr (Value.length_of_sameButKey hoverrides), ← validationRecords_masked,
      hchecked, validationRecords_masked]
  · simp only [assemble]
    rw [hresult, hresult, hchecked]

theorem map_eq_map_cases {ε α β : Type} {f : α → β} {x y : Except ε α} (h : x.map f = y.map f) :
    (∃ e, x = .error e ∧ y = .error e) ∨ ∃ a b, x = .ok a ∧ y = .ok b ∧ f a = f b := by
  cases x with
  | error e =>
    cases y with
    | error e' => exact .inl ⟨e, rfl, by cases h; rfl⟩
    | ok b => cases h
  | ok a =>
    cases y with
    | error e' => cases h
    | ok b => exact .inr ⟨a, b, rfl, rfl, Except.ok.inj h⟩

/-- Loads from sources that differ in account keys alone go on alike. -/
theorem SameButKey.load (h : SameButKey readers files files' env env' request request')
    (l l' : Loader) :
    (l.load readers files env request).records = (l'.load readers files' env' request').records ∧
      (l.load readers files env request).result.map Config.masked =
        (l'.load readers files' env' request').result.map Config.masked := by
  obtain ⟨hfile, hbase, henvironment, hoverrides⟩ := h
  simp only [LoadRequest.path?] at hbase
  unfold Loader.load
  rw [← hfile] at hbase ⊢
  dsimp only
  obtain ⟨e, hread, hread'⟩ | ⟨base, base', hread, hread', hsame⟩ := map_eq_map_cases hbase
  · rw [hread, hread']
    exact ⟨rfl, rfl⟩
  have herror : baseError? base = baseError? base' := by
    rw [← baseError?_hideKey, hsame, baseError?_hideKey]
  rw [hread, hread']
  dsimp only
  rw [herror]
  have hmembers := henvironment.members?
  cases hsettings : env.members? with
  | none =>
    rw [hsettings, Option.map_none, eq_comm, Option.map_eq_none_iff] at hmembers
    rw [hmembers]
    exact ⟨rfl, rfl⟩
  | some settings =>
    rw [hsettings, Option.map_some, eq_comm, Option.map_eq_some_iff] at hmembers
    obtain ⟨settings', hsettings', hsettingsSame⟩ := hmembers
    rw [hsettings']
    cases baseError? base' with
    | some e => exact ⟨rfl, rfl⟩
    | none => exact assemble_sameButKey _ _ _ _ hsame hsettingsSame.symm hoverrides

/-- If nothing but account keys that are not empty differs in the files, the environments and the
overrides of two loads, both have the same records and the same result but for the account key.  If
they succeed, the configurations are shown alike and differ in nothing but the key. -/
theorem load_sameButKey (l l' : Loader)
    (h : SameButKey readers files files' env env' request request') :
    let loaded := l.load readers files env request
    let loaded' := l'.load readers files' env' request'
    loaded.records = loaded'.records ∧
      loaded.result.map Config.masked = loaded'.result.map Config.masked ∧
      ∀ c c', loaded.result = .ok c → loaded'.result = .ok c' →
        (loaded.loader.respond readers .redacted).2 = (loaded'.loader.respond readers .redacted).2 ∧
          c' = { c with emulator := { c.emulator with key := c'.emulator.key } } := by
  intro loaded loaded'
  obtain ⟨hrecords, hresults⟩ := h.load l l'
  refine ⟨hrecords, hresults, fun c c' hc hc' => ?_⟩
  have hmasked : c.masked = c'.masked := by
    rw [hc, hc'] at hresults
    exact Except.ok.inj hresults
  have hshown : ∀ {l : Loader} {files env request c},
      (l.load readers files env request).result = .ok c →
        ((l.load readers files env request).loader.respond readers .redacted).2 =
          .shown (some c.masked) := by
    intro l files env request c hload
    rw [respond, loader_load, checked?_of_load hload]
    rfl
  refine ⟨?_, Config.eq_but_key hmasked⟩
  rw [hshown hc, hshown hc', hmasked]

/-- The file gives a key, which the environments and then the overrides give again, each time
another one. -/
theorem load_sameButKey_overridden :
    let files : Files := [("a.json", "\x7b\"emulator\":\x7b\"key\":\"a\"\x7d\x7d")]
    let env (key : String) : Environment :=
      [("LOCALCOSMOS_KEY", key), ("LOCALCOSMOS_LOG_LEVEL", "debug")]
    let request (key : String) : LoadRequest :=
      { file := some "a.json", overrides := [("emulator", .obj [("key", .str key)])] }
    let c (key : String) : Config :=
      { logging := { level := some .debug }, emulator := { key } }
    let loaded := load .plain {} files (env "b") (request "d")
    let loaded' := load .plain {} files (env "c") (request "e")
    loaded.result = .ok (c "d") ∧ loaded'.result = .ok (c "e") ∧ loaded.records = loaded'.records ∧
      (loaded.loader.respond .plain .redacted).2 = (loaded'.loader.respond .plain .redacted).2 := by
  intro files env request c loaded loaded'
  have henvironment : (env "b").SameButKey (env "c") := by
    constructor
    · intro name hname
      have hne : Environment.stem ++ name ≠ "LOCALCOSMOS_KEY" :=
        fun h => hname (Environment.stem_append_inj h)
      simp only [Environment.setting?, env, List.lookup_cons, beq_false_of_ne hne]
    · rfl
  have hsame : SameButKey .plain files files (env "b") (env "c") (request "d") (request "e") :=
    ⟨rfl, rfl, henvironment, rfl⟩
  have hloaded : loaded.result = .ok (c "d") := by decide +kernel
  have hloaded' : loaded'.result = .ok (c "e") := by decide +kernel
  obtain ⟨hrecords, -, hshown⟩ := load_sameButKey {} {} hsame
  exact ⟨hloaded, hloaded', hrecords, (hshown _ _ hloaded hloaded').1⟩

end Loader

end Pigeonhole
