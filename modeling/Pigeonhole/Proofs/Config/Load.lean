import Pigeonhole.Config.Loader
import Pigeonhole.Proofs.Files.Path

/-!
# What loading does

A load reads a file, or none (`LoadRequest.path?`), and may come to a configuration that passes its
check (`LoadRequest.checked?`).  Both are kept by the loader as they come (`Loader.loader_load`),
and the load succeeds if the configuration can be shown as well (`Loader.result_load`).
-/

namespace Pigeonhole

namespace LoadRequest

variable (request : LoadRequest) (readers : Readers) (files : Files) (env : Environment)

/-- The path of the file that is to be read. -/
def path? : Option String := request.file.filter (!·.isEmpty)

/-- The path by which a file that was read is remembered. -/
def opened? : Option String :=
  match Loader.readBase readers files request.path? with
  | .ok _ => request.path?.map Files.remembered
  | .error _ => none

/-- The mapping put together from the file, the environment and the overrides. -/
def merged? : Except LoadError Value :=
  match Loader.readBase readers files request.path? with
  | .error e => .error e
  | .ok base =>
    match env.members?, Loader.baseError? base with
    | none, _ => .error .charge
    | some _, some e => .error e
    | some settings, none =>
      .ok (Value.putOver (some (Value.putOver (some base) (.obj settings))) (.obj request.overrides))

/-- The configuration that a load comes to if it passes its check. -/
def checked? : Except LoadError Config :=
  (request.merged? readers files env).bind (Loader.validate readers)

end LoadRequest

namespace Loader

variable (l : Loader) (readers : Readers) (files : Files) (env : Environment) (request : LoadRequest)

theorem opened_eq (l : Loader) (path? : Option String) :
    l.opened path? =
      { l with file? := (path?.map Files.remembered).or l.file? } := by
  cases path? <;> rfl

theorem kept_eq (l : Loader) (checked : Except LoadError Config) :
    l.kept checked = { l with config? := checked.toOption.or l.config? } := by
  cases checked <;> rfl

/-- What a load leaves the loader with. -/
theorem loader_load : (l.load readers files env request).loader =
    { config? := (request.checked? readers files env).toOption.or l.config?
      file? := (request.opened? readers files).or l.file? } := by
  cases hbase : readBase readers files request.path? with
  | error e =>
    have hfile : readBase readers files (request.file.filter (!·.isEmpty)) = .error e := hbase
    simp only [load, hfile, LoadRequest.checked?, LoadRequest.merged?, LoadRequest.opened?, hbase]
    rfl
  | ok base =>
    have hfile : readBase readers files (request.file.filter (!·.isEmpty)) = .ok base := hbase
    simp only [load, hfile, LoadRequest.checked?, LoadRequest.merged?, LoadRequest.opened?, hbase]
    cases hsettings : env.members? with
    | none => exact opened_eq l _
    | some settings =>
      cases herror : baseError? base with
      | some e => exact opened_eq l _
      | none =>
        simp only [assemble, kept_eq, opened_eq]
        rfl

/-- What a load answers. -/
theorem result_load :
    (l.load readers files env request).result =
      (request.checked? readers files env).bind announced := by
  cases hbase : readBase readers files request.path? with
  | error e =>
    have hfile : readBase readers files (request.file.filter (!·.isEmpty)) = .error e := hbase
    simp only [load, hfile, LoadRequest.checked?, LoadRequest.merged?, hbase]
    rfl
  | ok base =>
    have hfile : readBase readers files (request.file.filter (!·.isEmpty)) = .ok base := hbase
    simp only [load, hfile, LoadRequest.checked?, LoadRequest.merged?, hbase]
    cases env.members? with
    | none => rfl
    | some settings => cases baseError? base <;> rfl

variable {l readers files env request}

theorem checked?_of_load {c : Config} (h : (l.load readers files env request).result = .ok c) :
    request.checked? readers files env = .ok c := by
  rw [result_load] at h
  cases hchecked : request.checked? readers files env with
  | error e =>
    rw [hchecked] at h
    contradiction
  | ok checked =>
    have hannounced : announced checked = .ok c := by
      rwa [hchecked] at h
    rw [announced] at hannounced
    split at hannounced
    · exact hannounced
    · contradiction

end Loader

end Pigeonhole
