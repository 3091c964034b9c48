import Mathlib.Control.Monad.Basic
import Pigeonhole.Proofs.Config.Load
import Pigeonhole.Proofs.Text.Decimal
import Pigeonhole.Yaml.Reader

/-!
# Failed loads

A load may fail after its file was read, and the loader has remembered the file then.  It may also
fail because a configuration that passed its check cannot be shown, and the loader has kept the
configuration then.  Later calls show both (`answers_load_eq_iff`), so a failed load goes unnoticed
exactly if what it has left was there before (`failed_load`).
-/

namespace Pigeonhole

namespace Loader

/-! ## Calls -/

/-- A call of a loader, with what there is to read at that time. -/
inductive Call where
  | load (files : Files) (env : Environment) (request : LoadRequest)
  | reload (files : Files) (env : Environment)
  | get
  | redacted

/-- What a call answers. -/
inductive Answer where
  | loaded (result : Except LoadError Config) (records : List Log.Record)
  /-- A configuration, or none if there is none yet. -/
  | shown (c? : Option Config)

/-- Answers a call. -/
def respond (readers : Readers) (l : Loader) : Call → Loader × Answer
  | .load files env request =>
    let o := l.load readers files env request
    (o.loader, .loaded o.result o.records)
  | .reload files env =>
    let o := l.reload readers files env
    (o.loader, .loaded o.result o.records)
  | .get => (l, .shown l.config?)
  | .redacted => (l, .shown (l.config?.map Config.masked))

/-- The answers to calls made one after the other. -/
def answers (readers : Readers) (l : Loader) : List Call → List Answer
  | [] => []
  | call :: rest => (l.respond readers call).2 :: (l.respond readers call).1.answers readers rest

/-- The loader after calls. -/
def after (readers : Readers) (l : Loader) (calls : List Call) : Loader :=
  calls.foldl (fun l call => (l.respond readers call).1) l

variable {readers : Readers} {l other : Loader} {files : Files} {env : Environment}
  {request : LoadRequest}

/-! ## The remembered file -/

/-- The remembered file is remembered by the text of its path. -/
structure Remembers (l : Loader) : Prop where
  file : ∀ path, l.file? = some path → Files.remembered path = path

theorem opened?_eq_some {path : String} (h : request.opened? readers files = some path) :
    ∃ name base, request.path? = some name ∧ readFile readers files name = .ok base ∧
      path = Files.remembered name := by
  unfold LoadRequest.opened? at h
  cases hpath : request.path? with
  | none =>
    rw [hpath] at h
    split at h <;> cases h
  | some name =>
    rw [hpath] at h
    cases hbase : readBase readers files (some name) with
    | error e =>
      rw [hbase] at h
      cases h
    | ok base =>
      rw [hbase] at h
      cases h
      exact ⟨name, base, rfl, hbase, rfl⟩

theorem Remembers.load (h : l.Remembers) (readers : Readers) (files : Files) (env : Environment)
    (request : LoadRequest) : (l.load readers files env request).loader.Remembers where
  file path hfile := by
    rw [loader_load] at hfile
    rcases Option.or_eq_some_iff.1 hfile with hopened | ⟨-, hfile⟩
    · obtain ⟨name, -, -, -, rfl⟩ := opened?_eq_some hopened
      exact Files.remembered_remembered name
    · exact h.file path hfile

theorem Remembers.respond (h : l.Remembers) (readers : Readers) (call : Call) :
    (l.respond readers call).1.Remembers := by
  cases call with
  | load files env request => exact h.load readers files env request
  | reload files env => exact h.load readers files env _
  | get => exact h
  | redacted => exact h

theorem Remembers.after (h : l.Remembers) (readers : Readers) (calls : List Call) :
    (l.after readers calls).Remembers := by
  induction calls generalizing l with
  | nil => exact h
  | cons call rest ih => exact ih (h.respond readers call)

theorem remembers_new : Remembers {} where
  file path hfile := by cases hfile

/-- A load from the remembered file remembers the same file. -/
theorem Remembers.opened? (h : l.Remembers) (hfile : request.file = l.file?) {path : String}
    (hopened : request.opened? readers files = some path) : l.file? = some path := by
  obtain ⟨name, -, hpath, -, rfl⟩ := opened?_eq_some hopened
  have hname : l.file? = some name := by
    rw [← hfile]
    exact (Option.filter_eq_some_iff.1 hpath).1
  rw [hname, h.file name hname]

/-! ## Later calls -/

theorem readFile_remembered {name : String} {v : Value} (h : readFile readers files name = .ok v) :
    readFile readers files (Files.remembered name) = .ok v := by
  unfold readFile Files.isYaml at h ⊢
  rw [Files.pathOf_remembered]
  cases hentry : files.entry (String.ofList (Files.pathOf name).text) with
  | error e =>
    rw [hentry] at h
    cases e <;> cases h
  | ok entry =>
    rw [hentry] at h
    cases entry <;> exact h

theorem path?_remembered (name : String) (overrides : List (String × Value)) :
    LoadRequest.path? { file := some (Files.remembered name), overrides } =
      some (Files.remembered name) := by
  have hne : (!(Files.remembered name).isEmpty) = true := by
    rw [Bool.not_eq_true', String.isEmpty_eq_false_iff]
    exact Files.remembered_ne_empty name
  exact Option.filter_some_pos hne

/-- The record that follows the first one, when nothing but a file is given. -/
theorem second_record (readers : Readers) (l : Loader) (files : Files) (file : Option String) :
    (l.load readers files [] { file }).records[1]? =
      match LoadRequest.path? { file } with
      | none => some (progress "Configuration validated successfully")
      | some path =>
        match readFile readers files path with
        | .ok _ => some (progress ("Loaded configuration from file: " ++ path))
        | .error _ => none := by
  cases hpath : LoadRequest.path? { file } with
  | none =>
    have hfile : file.filter (!·.isEmpty) = none := hpath
    have hvalid : validate readers (Value.putOver (some (Value.putOver (some (.obj [])) (.obj [])))
        (.obj [])) = .ok {} := rfl
    have hmembers : Environment.members? [] = some [] := rfl
    simp only [load, hfile, readBase, hmembers, baseError?, assemble, hvalid]
    rfl
  | some path =>
    have hfile : file.filter (!·.isEmpty) = some path := hpath
    cases hread : readFile readers files path with
    | error e =>
      simp only [load, hfile, readBase, hread]
      rfl
    | ok base =>
      have hmembers : Environment.members? [] = some [] := rfl
      simp only [load, hfile, readBase, hread, hmembers]
      cases baseError? base <;> rfl

theorem progress_inj {a b : String} (h : progress a = progress b) : a = b :=
  Tree.str.inj (congrArg Log.Record.message h)

theorem ne_loaded_record (path : String) :
    "Configuration validated successfully" ≠ "Loaded configuration from file: " ++ path := by
  intro h
  have hloaded : "Loaded configuration from file: ".toList =
      'L' :: "oaded configuration from file: ".toList := by decide
  have hhead : "Configuration validated successfully".toList.head? = some 'L' := by
    rw [h, String.toList_append, hloaded]
    rfl
  revert hhead
  decide

/-- Of a file that was read just now, a loader that reloads likewise remembers the path. -/
theorem file?_of_answers {name : String} {base : Value}
    (hread : readFile readers files name = .ok base) (hfile : l.file? = some (Files.remembered name))
    (h : l.answers readers [.reload files []] = other.answers readers [.reload files []]) :
    other.file? = some (Files.remembered name) := by
  have hrecords : (l.load readers files [] { file := l.file? }).records[1]? =
      (other.load readers files [] { file := other.file? }).records[1]? := by
    exact congrArg (·[1]?) (Answer.loaded.inj (List.cons.inj h).1).2
  rw [second_record, second_record, hfile, path?_remembered] at hrecords
  simp only [readFile_remembered hread] at hrecords
  cases hpath : LoadRequest.path? { file := other.file? } with
  | none =>
    simp only [hpath, Option.some.injEq] at hrecords
    exact absurd (progress_inj hrecords).symm (ne_loaded_record _)
  | some path =>
    simp only [hpath] at hrecords
    cases hother : readFile readers files path with
    | error e =>
      simp only [hother, reduceCtorEq] at hrecords
    | ok v =>
      simp only [hother, Option.some.injEq] at hrecords
      have hsame : Files.remembered name = path := by
        have htexts := congrArg String.toList (progress_inj hrecords)
        rw [String.toList_append, String.toList_append] at htexts
        exact String.toList_injective (List.append_cancel_left htexts)
      rw [hsame]
      exact (Option.filter_eq_some_iff.1 hpath).1

/-- No later call shows that a load was made exactly if the configuration and the file that it left
were there before. -/
theorem answers_load_eq_iff (readers : Readers) (l : Loader) (files : Files) (env : Environment)
    (request : LoadRequest) :
    (∀ later, (l.load readers files env request).loader.answers readers later =
        l.answers readers later) ↔
      (∀ c, request.checked? readers files env = .ok c → l.config? = some c) ∧
        ∀ path, request.opened? readers files = some path → l.file? = some path := by
  rw [loader_load]
  constructor
  · intro hlater
    constructor
    · intro c hchecked
      have hget := Answer.shown.inj (List.cons.inj (hlater [.get])).1
      rw [← hget, hchecked]
      rfl
    · intro path hopened
      obtain ⟨name, base, -, hread, rfl⟩ := opened?_eq_some hopened
      have hreload := hlater [.reload files []]
      rw [hopened] at hreload
      exact file?_of_answers hread rfl hreload
  · rintro ⟨hconfig, hfile⟩ later
    have hchecked : (request.checked? readers files env).toOption.or l.config? = l.config? := by
      cases hc : request.checked? readers files env with
      | error e => rfl
      | ok c => exact (hconfig c hc).symm
    have hopened : (request.opened? readers files).or l.file? = l.file? := by
      cases ho : request.opened? readers files with
      | none => rfl
      | some path => exact (hfile path ho).symm
    rw [hchecked, hopened]

theorem isShowable_of_failed {c : Config} {e : LoadError}
    (h : (l.load readers files env request).result = .error e)
    (hchecked : request.checked? readers files env = .ok c) : c.isShowable = false := by
  rw [result_load, hchecked] at h
  have hannounced : announced c = .error e := h
  cases hshowable : c.isShowable with
  | false => rfl
  | true =>
    rw [announced, if_pos hshowable] at hannounced
    contradiction

/-- The overrides that set the number of rotated files. -/
def countOverrides (count : Int) : List (String × Value) :=
  [("logging", .obj [("rotation_count", Tree.int count)])]

theorem checked?_countOverrides (readers : Readers) (count : Int) :
    LoadRequest.checked? { overrides := countOverrides count } readers [] [] =
      .ok { logging := { rotationCount := count } } :=
  rfl

/-- A number of rotated files with too many digits to be shown fails the load. -/
theorem load_countOverrides {n : Nat} (h : Numeral.maxDigits < (Text.natDigits n).length) :
    (load readers l [] [] { overrides := countOverrides n }).result =
      .error (.json .longInteger) := by
  have hshowable : Config.isShowable { logging := { rotationCount := n } } = false :=
    decide_eq_false (Nat.not_le_of_lt h)
  rw [result_load, checked?_countOverrides]
  show announced _ = _
  rw [announced, hshowable]
  rfl

/-- A failed load leaves behind a configuration that passed its check but cannot be shown, and the
file if it was read.  No later call shows that it was made exactly if both were there before.  A
load from the remembered file, which a reload is, leaves no other file behind. -/
theorem failed_load (readers : Readers) (history : List Call) (files : Files) (env : Environment)
    (request : LoadRequest) (e : LoadError)
    (h : ((after readers {} history).load readers files env request).result = .error e) :
    let l := after readers {} history
    let left := (l.load readers files env request).loader
    left = { config? := (request.checked? readers files env).toOption.or l.config?
             file? := (request.opened? readers files).or l.file? } ∧
      (∀ c, request.checked? readers files env = .ok c → c.isShowable = false) ∧
      ((∀ later, left.answers readers later = l.answers readers later) ↔
        (∀ c, request.checked? readers files env = .ok c → l.config? = some c) ∧
          ∀ path, request.opened? readers files = some path → l.file? = some path) ∧
      (request.file = l.file? →
        ∀ path, request.opened? readers files = some path → l.file? = some path) :=
  ⟨loader_load _ readers files env request, fun _ hchecked => isShowable_of_failed h hchecked,
    answers_load_eq_iff _ _ files env request,
    fun hfile _ hopened => (remembers_new.after readers history).opened? hfile hopened⟩

/-- The configuration with too many digits to be shown is kept. -/
theorem failed_load_count :
    let request : LoadRequest := { overrides := countOverrides (tenPow Numeral.maxDigits : Nat) }
    let left := (load .plain {} [] [] request).loader
    (load .plain {} [] [] request).result = .error (.json .longInteger) ∧
      left.config?.isSome = true ∧
      ¬ ∀ later, left.answers .plain later = answers .plain {} later := by
  intro request left
  have hfailed : (load .plain {} [] [] request).result = .error (.json .longInteger) :=
    load_countOverrides (Text.lt_length_natDigits_tenPow Numeral.maxDigits)
  obtain ⟨hleft, -, hlater, -⟩ := failed_load .plain [] [] [] request _ hfailed
  refine ⟨hfailed, ?_, fun h => ?_⟩
  · rw [show left = _ from hleft, checked?_countOverrides]
    rfl
  · have hbefore := (hlater.1 h).1 _ (checked?_countOverrides _ _)
    cases hbefore

/-- After a good load and one that fails in its check, a reload fails where it would have succeeded
without the failed load. -/
theorem failed_load_shows :
    let files : Files := [("good.json", "\x7b\x7d"), ("bad.json", "\x7b\"version\":\"1\"\x7d")]
    let good := after .plain {} [.load files [] { file := some "good.json" }]
    let bad := good.load .plain files [] { file := some "bad.json" }
    let invalid : LoadError := .invalid [⟨[.key "version"], .rule "Version must be in format x.y.z"⟩]
    bad.result = .error invalid ∧ (good.reload .plain files []).result = .ok {} ∧
      (bad.loader.reload .plain files []).result = .error invalid :=
  ⟨by decide +kernel, by decide +kernel, by decide +kernel⟩

end Loader

end Pigeonhole
