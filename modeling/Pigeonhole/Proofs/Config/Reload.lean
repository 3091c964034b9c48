import Pigeonhole.Proofs.Config.Failure
import Pigeonhole.Proofs.Config.Precedence

/-!
# Reloads

Of what a configuration is loaded from, a loader remembers the file that was read last
(`Loader.file?_after`) and nothing else.  So a reload loads from that file without overrides, and
changes nothing exactly where neither overrides nor the file of an earlier load matter
(`Loader.reload_load`).
-/

namespace Pigeonhole

/-! ## No overrides -/

namespace Value

theorem at?_nil (key : Key) (path : List Key) : at? (key :: path) (.obj []) = none := rfl

theorem keyed_nil : Keyed (.obj []) := keyed_obj List.nodup_nil (by simp)

theorem open_nil (path : List Key) : Open (.obj []) path := by
  intro first w key rest _ hw
  cases first with
  | nil =>
    cases hw
    rfl
  | cons outer first =>
    rw [at?_nil] at hw
    contradiction

end Value

theorem Setting.at?_path_nil (s : Setting) : Value.at? s.path (.obj []) = none := by
  cases s <;> rfl

/-! ## Equal settings -/

namespace Checked

variable {α : Type} {default a b : α} {check : Value → Checked α} {found : Option Value}

theorem Reads.unique (ha : Reads default check found a) (hb : Reads default check found b) :
    a = b := by
  have hsame : Checked.ok a = .ok b := Eq.trans (Eq.symm ha) hb
  exact Checked.ok.inj hsame

end Checked

namespace Setting

variable {found : Option Value} {c c' : Config}

/-- Whether two configurations have the same setting. -/
def Same (c c' : Config) : Setting → Prop
  | version => c.version = c'.version
  | level => c.logging.level = c'.logging.level
  | format => c.logging.format = c'.logging.format
  | file => c.logging.file = c'.logging.file
  | rotationSize => c.logging.rotationSize = c'.logging.rotationSize
  | rotationCount => c.logging.rotationCount = c'.logging.rotationCount
  | moduleLevels => c.logging.moduleLevels.isSome = c'.logging.moduleLevels.isSome
  | moduleLevel logger =>
    c.logging.moduleLevels.bind (·.lookup logger) = c'.logging.moduleLevels.bind (·.lookup logger)
  | endpoint => c.emulator.endpoint = c'.emulator.endpoint
  | key => c.emulator.key = c'.emulator.key
  | charge => c.emulator.charge = c'.emulator.charge

theorem same_of_reads {readers : Readers} {s : Setting} (h : s.Reads readers found c)
    (h' : s.Reads readers found c') :
    s.Same c c' := by
  cases s with
  | moduleLevels => exact Eq.trans h (Eq.symm h')
  | _ => exact Checked.Reads.unique h h'

end Setting

namespace Loader

variable {readers : Readers} {l : Loader} {files : Files} {env : Environment}
  {request : LoadRequest} {c : Config}

/-! ## The file that is remembered -/

/-- The file that a load reads, by the path by which it is remembered. -/
def Call.opened? (readers : Readers) : Call → Option String
  | .load files _ request => request.opened? readers files
  | .reload .. | .get | .redacted => none

/-- The file that the loads among calls have read last. -/
def lastOpened? (readers : Readers) (calls : List Call) : Option String :=
  calls.reverse.findSome? (Call.opened? readers)

theorem lastOpened?_concat (readers : Readers) (calls : List Call) (call : Call) :
    lastOpened? readers (calls ++ [call]) =
      (call.opened? readers).or (lastOpened? readers calls) := by
  rw [lastOpened?, List.reverse_concat, List.findSome?_cons]
  cases call.opened? readers <;> rfl

/-- A reload leaves the remembered file. -/
theorem Remembers.file?_reload (h : l.Remembers) (readers : Readers) (files : Files)
    (env : Environment) : (l.reload readers files env).loader.file? = l.file? := by
  rw [reload, loader_load]
  show (LoadRequest.opened? { file := l.file? } readers files).or l.file? = l.file?
  cases hopened : LoadRequest.opened? { file := l.file? } readers files with
  | none => rfl
  | some path => exact (h.opened? rfl hopened).symm

theorem Remembers.file?_respond (h : l.Remembers) (readers : Readers) (call : Call) :
    (l.respond readers call).1.file? = (call.opened? readers).or l.file? := by
  cases call with
  | load files env request => exact congrArg Loader.file? (loader_load l readers files env request)
  | reload files env => exact h.file?_reload readers files env
  | get | redacted => rfl

theorem file?_after (readers : Readers) (calls : List Call) :
    (after readers {} calls).file? = lastOpened? readers calls := by
  induction calls using List.reverseRecOn with
  | nil => rfl
  | append_singleton calls call ih =>
    rw [after, List.foldl_concat, lastOpened?_concat, ← ih]
    exact (remembers_new.after readers calls).file?_respond readers call

/-! ## What a reload loads -/

/-- A load looks at its files, its environment, the path to be read and the overrides only. -/
theorem result_congr {l other : Loader} {request request' : LoadRequest}
    (hbase : readBase readers files request.path? = readBase readers files request'.path?)
    (hoverrides : request.overrides = request'.overrides) :
    (l.load readers files env request).result = (other.load readers files env request').result := by
  rw [result_load, result_load, LoadRequest.checked?, LoadRequest.checked?, LoadRequest.merged?,
    LoadRequest.merged?, hbase, hoverrides]

theorem readBase_of_load (h : (l.load readers files env request).result = .ok c) :
    ∃ base, readBase readers files request.path? = .ok base := by
  cases hbase : readBase readers files request.path? with
  | ok base => exact ⟨base, rfl⟩
  | error e =>
    have hchecked := checked?_of_load h
    rw [LoadRequest.checked?, LoadRequest.merged?, hbase] at hchecked
    contradiction

theorem path?_of_path? {name : String} (h : request.path? = some name)
    (overrides : List (String × Value)) :
    LoadRequest.path? { file := some name, overrides } = some name :=
  Option.filter_some_pos (Option.filter_eq_some_iff.1 h).2

/-- After a successful load, a reload is a load without overrides from the file of that load or, if
it had none, from the file that was remembered before it. -/
theorem result_reload (h : (l.load readers files env request).result = .ok c) :
    ((l.load readers files env request).loader.reload readers files env).result =
      (load readers {} files env { file := request.path?.or l.file? }).result := by
  obtain ⟨base, hbase⟩ := readBase_of_load h
  have hfile : (l.load readers files env request).loader.file? =
      (request.path?.map Files.remembered).or l.file? := by
    rw [loader_load, LoadRequest.opened?, hbase]
  rw [reload, hfile]
  refine result_congr ?_ rfl
  cases hpath : request.path? with
  | none => rfl
  | some name =>
    rw [hpath, readBase] at hbase
    simp only [Option.map_some, Option.some_or, path?_remembered, path?_of_path? hpath, readBase]
    exact (readFile_remembered hbase).trans hbase.symm

/-- Another reload comes to the same. -/
theorem Remembers.reload_reload (h : l.Remembers) (readers : Readers) (files : Files)
    (env : Environment) :
    ((l.reload readers files env).loader.reload readers files env).result =
      (l.reload readers files env).result := by
  rw [reload, h.file?_reload]
  exact result_congr rfl rfl

/-- If the file is the same, what the overrides leave alone is the same without them. -/
theorem same_without_overrides {request' : LoadRequest} {c' : Config}
    (h : request.checked? readers files env = .ok c)
    (h' : request'.checked? readers files env = .ok c')
    (hpath : request'.path? = request.path?) (hnil : request'.overrides = [])
    (hkeyed : Value.Keyed (.obj request.overrides)) {s : Setting}
    (hopen : Value.Open (.obj request.overrides) s.path)
    (hnone : Value.at? s.path (.obj request.overrides) = none) : s.Same c c' := by
  have hempty : Value.Keyed (.obj request'.overrides) := by
    rw [hnil]
    exact Value.keyed_nil
  have hopen' : Value.Open (.obj request'.overrides) s.path := by
    rw [hnil]
    exact Value.open_nil s.path
  obtain ⟨base, hbase, -, hreads⟩ := Setting.reads_of_checked h hkeyed
  obtain ⟨base', hbase', -, hreads'⟩ := Setting.reads_of_checked h' hempty
  have hsame : base' = base := by
    rw [hpath, hbase] at hbase'
    exact (Except.ok.inj hbase').symm
  have hread := hreads s hopen
  have hread' := hreads' s hopen'
  rw [hnone] at hread
  rw [hnil, s.at?_path_nil, hsame] at hread'
  exact Setting.same_of_reads hread hread'

/-- After calls the last of which was a load that succeeded, a reload loads from the file of that
load or, if it had none, from the file that was read last before it, and without overrides.  If
there is no such older file either, a load without overrides is reloaded as it was, and from what
had been loaded with overrides a reload that succeeds keeps every setting that these leave alone.
Another reload comes to the same. -/
theorem reload_load (readers : Readers) (history : List Call) (files : Files) (env : Environment)
    (request : LoadRequest) (c : Config)
    (h : ((after readers {} history).load readers files env request).result = .ok c) :
    let file := request.path?.or (lastOpened? readers history)
    let loaded := (after readers {} history).load readers files env request
    let reloaded := loaded.loader.reload readers files env
    reloaded.result = (load readers {} files env { file }).result ∧
      ((request.path? = none → lastOpened? readers history = none) →
        (request.overrides = [] → reloaded.result = .ok c) ∧
        ∀ c', reloaded.result = .ok c' → Value.Keyed (.obj request.overrides) → ∀ s : Setting,
          Value.Open (.obj request.overrides) s.path →
            Value.at? s.path (.obj request.overrides) = none → s.Same c c') ∧
      (reloaded.loader.reload readers files env).result = reloaded.result := by
  intro file loaded reloaded
  have hresult : reloaded.result = (load readers {} files env { file }).result := by
    rw [result_reload h, file?_after]
  have hremembers := (remembers_new.after readers history).load readers files env request
  refine ⟨hresult, fun hfile => ?_, hremembers.reload_reload readers files env⟩
  have hpath : LoadRequest.path? { file } = request.path? := by
    show LoadRequest.path? { file := request.path?.or (lastOpened? readers history) } = _
    cases hpath : request.path? with
    | none =>
      rw [hfile hpath]
      rfl
    | some name => exact path?_of_path? hpath []
  rw [hresult]
  constructor
  · intro hnil
    rw [← h]
    exact result_congr (congrArg _ hpath) hnil.symm
  · intro c' h' hkeyed s hopen hnone
    exact same_without_overrides (checked?_of_load h) (checked?_of_load h') hpath rfl hkeyed hopen
      hnone

/-- The overrides give the account key, which a reload does not know, and leave the version. -/
theorem reload_load_key :
    let files : Files := [("a.json", "\x7b\"version\":\"2.0.0\"\x7d")]
    let request : LoadRequest :=
      { file := some "a.json", overrides := [("emulator", .obj [("key", .str "k")])] }
    let history : List Call := [.load files [] { file := some "a.json" }, .get]
    let loaded := (after .plain {} history).load .plain files [] request
    loaded.result = .ok { version := "2.0.0", emulator := { key := "k" } } ∧
      (loaded.loader.reload .plain files []).result = .ok { version := "2.0.0" } ∧
      Setting.version.Same { version := "2.0.0", emulator := { key := "k" } }
        { version := "2.0.0" } := by
  intro files request history loaded
  have hloaded : loaded.result = .ok { version := "2.0.0", emulator := { key := "k" } } := by
    decide +kernel
  have hreload : (loaded.loader.reload .plain files []).result = .ok { version := "2.0.0" } := by
    decide +kernel
  obtain ⟨-, hsame, -⟩ := reload_load .plain history files [] request _ hloaded
  have hkeyed : Value.Keyed (.obj request.overrides) := by
    apply Value.keyed_obj (by decide)
    intro m hm
    rw [List.mem_singleton.1 hm]
    apply Value.keyed_obj (by decide)
    intro m hm
    rw [List.mem_singleton.1 hm]
    exact Value.keyed_of_none rfl
  have hopen : Value.Open (.obj request.overrides) Setting.version.path := by
    intro first w key rest hpath hw
    cases first with
    | nil =>
      cases hw
      rfl
    | cons outer first => simp [Setting.path] at hpath
  have hpath : request.path? ≠ none := by simp [request, LoadRequest.path?]
  refine ⟨hloaded, hreload, ?_⟩
  exact (hsame fun hnone => absurd hnone hpath).2 _ hreload hkeyed .version hopen rfl

/-- A reload forgets the overrides, takes up the file of an earlier load again, and fails where
only the overrides had made the file pass its check. -/
theorem reload_forgets :
    let plain : Files := [("a.json", "\x7b\"version\":\"2.0.0\"\x7d")]
    let unfit : Files := [("a.json", "\x7b\"version\":\"2\"\x7d")]
    let override : List (String × Value) := [("version", .str "2.0.0")]
    let overridden := load .plain {} [] [] { overrides := override }
    let older := (after .plain {} [.load plain [] { file := some "a.json" }]).load .plain plain [] {}
    let repaired := load .plain {} unfit [] { file := some "a.json", overrides := override }
    (overridden.result = .ok { version := "2.0.0" } ∧
        (overridden.loader.reload .plain [] []).result = .ok {}) ∧
      (older.result = .ok {} ∧
        (older.loader.reload .plain plain []).result = .ok { version := "2.0.0" }) ∧
      repaired.result = .ok { version := "2.0.0" } ∧
      (repaired.loader.reload .plain unfit []).result =
        .error (.invalid [⟨[.key "version"], .rule "Version must be in format x.y.z"⟩]) :=
  ⟨by decide +kernel, by decide +kernel, by decide +kernel⟩

end Loader

end Pigeonhole
