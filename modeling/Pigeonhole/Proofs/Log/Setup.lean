import Pigeonhole.Log.Setup

/-!
# Failed set-ups

A set-up reads its format, its targets and its level before it sets anything (`Settings.base`), so
a fault in one of these leaves the log as it was.  The levels of loggers are read one by one when
all else is set already: the first that is unknown stops the set-up, and what was set until then
stays (`failed_configure`).
-/

namespace Pigeonhole.Log

/-- What a set-up reads before it sets anything. -/
structure Base where
  format : Format
  targets : List Target
  level : Nat

/-- What settings have a set-up read before it sets anything. -/
def Settings.base (s : Settings) : Except SetupError Base :=
  match Format.ofName? s.format with
  | none => .error (.unknownFormat s.format)
  | some format =>
    match Logging.targetsOf s with
    | .error e => .error e
    | .ok targets =>
      match readThreshold s.level with
      | .error e => .error e
      | .ok level => .ok { format, targets, level }

/-- Levels by name are read, as thresholds, up to one that is unknown. -/
inductive StopsAfter : List (String × String) → List (String × Nat) → SetupError → Prop where
  | here {name level : String} {rest : List (String × String)} {e : SetupError} :
      readThreshold level = .error e → StopsAfter ((name, level) :: rest) [] e
  | next {name level : String} {rest : List (String × String)} {n : Nat}
      {set : List (String × Nat)} {e : SetupError} :
      readThreshold level = .ok n → StopsAfter rest set e →
        StopsAfter ((name, level) :: rest) ((name, n) :: set) e

namespace Logging

variable {g after : Logging} {s : Settings} {e : SetupError}

/-- The log with what a set-up sets first. -/
def withBase (g : Logging) (b : Base) : Logging :=
  { g with rootLevel := b.level, format := b.format, targets := b.targets }

/-- The log with the thresholds of several loggers set. -/
def withLevels (g : Logging) (set : List (String × Nat)) : Logging :=
  set.foldl (fun g (name, n) => g.setLevel name n) g

/-- The threshold that a logger itself has; none counts as the lowest. -/
def ownLevel (g : Logging) (logger : String) : Nat :=
  if isRoot logger then g.rootLevel else (g.levels.lookup logger).getD 0

/-- The last threshold for a logger, among thresholds by name. -/
def lastLevel? (logger : String) : List (String × Nat) → Option Nat
  | [] => none
  | (name, n) :: rest =>
    (lastLevel? logger rest).or (if loggerName name = loggerName logger then some n else none)

/-! ## Thresholds of loggers -/

theorem loggerName_eq_iff {name logger : String} (hname : isRoot name = false)
    (hlogger : isRoot logger = false) : loggerName name = loggerName logger ↔ name = logger := by
  simp [loggerName, hname, hlogger]

theorem loggerName_ne_root {name : String} (hname : isRoot name = false) :
    loggerName name ≠ "root" := by
  rw [loggerName, hname]
  rintro rfl
  cases hname

theorem ownLevel_setLevel (g : Logging) (name : String) (n : Nat) (logger : String) :
    (g.setLevel name n).ownLevel logger =
      if loggerName name = loggerName logger then n else g.ownLevel logger := by
  unfold setLevel
  cases hname : isRoot name <;> cases hlogger : isRoot logger
  · by_cases heq : name = logger
    · simp [ownLevel, hlogger, heq, lookup_assign_self]
    · have hne := mt (loggerName_eq_iff hname hlogger).1 heq
      simp [ownLevel, hlogger, hne, lookup_assign_of_ne (Ne.symm heq)]
  · have hne : loggerName name ≠ loggerName logger := by
      simpa [loggerName, hlogger] using loggerName_ne_root hname
    simp [ownLevel, hlogger, hne]
  · have hne : loggerName name ≠ loggerName logger := by
      simpa [loggerName, hname] using (loggerName_ne_root hlogger).symm
    simp [ownLevel, hlogger, hne]
  · simp [ownLevel, loggerName, hname, hlogger]

theorem ownLevel_withLevels (set : List (String × Nat)) (g : Logging) (logger : String) :
    (g.withLevels set).ownLevel logger = (lastLevel? logger set).getD (g.ownLevel logger) := by
  induction set generalizing g with
  | nil => rfl
  | cons entry rest ih =>
    obtain ⟨name, n⟩ := entry
    show ((g.setLevel name n).withLevels rest).ownLevel logger = _
    rw [ih, ownLevel_setLevel, lastLevel?]
    cases lastLevel? logger rest with
    | some last => rfl
    | none => by_cases h : loggerName name = loggerName logger <;> simp [h]

theorem setLevel_targets (g : Logging) (name : String) (n : Nat) :
    (g.setLevel name n).targets = g.targets ∧ (g.setLevel name n).format = g.format := by
  unfold setLevel
  split <;> exact ⟨rfl, rfl⟩

theorem withLevels_targets (set : List (String × Nat)) (g : Logging) :
    (g.withLevels set).targets = g.targets ∧ (g.withLevels set).format = g.format := by
  induction set generalizing g with
  | nil => exact ⟨rfl, rfl⟩
  | cons entry rest ih =>
    obtain ⟨htargets, hformat⟩ := ih (g.setLevel entry.1 entry.2)
    obtain ⟨htargets', hformat'⟩ := g.setLevel_targets entry.1 entry.2
    exact ⟨htargets.trans htargets', hformat.trans hformat'⟩

/-! ## Set-ups that fail -/

/-- Setting levels fails at the first that is unknown, with those before it set. -/
theorem setLevels_eq_error_iff {levels : List (String × String)} :
    g.setLevels levels = (after, .error e) ↔
      ∃ set, StopsAfter levels set e ∧ after = g.withLevels set := by
  induction levels generalizing g with
  | nil =>
    constructor
    · intro h
      cases h
    · rintro ⟨set, ⟨⟩, -⟩
  | cons entry rest ih =>
    obtain ⟨name, level⟩ := entry
    rw [setLevels]
    cases hlevel : readThreshold level with
    | error e' =>
      constructor
      · rintro ⟨⟩
        exact ⟨[], .here hlevel, rfl⟩
      · rintro ⟨set, hset, rfl⟩
        cases hset with
        | here h =>
          obtain rfl := Except.error.inj (hlevel.symm.trans h)
          rfl
        | next h _ => cases hlevel.symm.trans h
    | ok n =>
      simp only [ih]
      constructor
      · rintro ⟨set, hset, rfl⟩
        exact ⟨(name, n) :: set, .next hlevel hset, rfl⟩
      · rintro ⟨set, hset, rfl⟩
        cases hset with
        | here h => cases hlevel.symm.trans h
        | next h hset =>
          obtain rfl := Except.ok.inj (hlevel.symm.trans h)
          exact ⟨_, hset, rfl⟩

theorem configure_eq (g : Logging) (s : Settings) (current : Option String) (created : Number) :
    g.configure s current created = match s.base with
      | .error e => (g, .error e)
      | .ok b =>
        match (g.withBase b).setLevels s.moduleLevels with
        | (g, .error e) => (g, .error e)
        | (g, .ok ()) => (g.emit current (configuredRecord s created), .ok ()) := by
  unfold configure Settings.base
  cases Format.ofName? s.format with
  | none => rfl
  | some format =>
    cases targetsOf s with
    | error e => rfl
    | ok targets => cases readThreshold s.level <;> rfl

/-- Set-ups fail before they set anything, or at a level of a logger. -/
theorem configure_eq_error_iff {current : Option String} {created : Number} :
    g.configure s current created = (after, .error e) ↔
      s.base = .error e ∧ after = g ∨
      ∃ b set, s.base = .ok b ∧ StopsAfter s.moduleLevels set e ∧
        after = (g.withBase b).withLevels set := by
  rw [configure_eq]
  cases s.base with
  | error e' => simp [eq_comm, and_comm]
  | ok b =>
    have hlevels : (g.withBase b).setLevels s.moduleLevels = (after, .error e) ↔ _ :=
      setLevels_eq_error_iff
    rcases hset : (g.withBase b).setLevels s.moduleLevels with ⟨g', e' | ⟨⟩⟩ <;>
      rw [hset] at hlevels <;> simpa [hset] using hlevels

theorem ownLevel_withBase (g : Logging) (b : Base) (logger : String) :
    (g.withBase b).ownLevel logger = if isRoot logger then b.level else g.ownLevel logger := by
  unfold ownLevel
  cases isRoot logger <;> rfl

/-- A set-up that fails leaves the log as it was, or it has set the format, the targets and the
level of the settings, and of the levels of loggers those before the first that is unknown. -/
theorem failed_configure (g : Logging) (s : Settings) (current : Option String) (created : Number)
    (after : Logging) (e : SetupError) :
    g.configure s current created = (after, .error e) ↔
      s.base = .error e ∧ after = g ∨
      ∃ b set, s.base = .ok b ∧ StopsAfter s.moduleLevels set e ∧
        after = (g.withBase b).withLevels set ∧
        after.format = b.format ∧ after.targets = b.targets ∧
        ∀ logger, after.ownLevel logger =
          (lastLevel? logger set).getD (if isRoot logger then b.level else g.ownLevel logger) := by
  rw [configure_eq_error_iff]
  constructor
  · rintro (hbefore | ⟨b, set, hbase, hset, rfl⟩)
    · exact .inl hbefore
    · obtain ⟨htargets, hformat⟩ := withLevels_targets set (g.withBase b)
      refine .inr ⟨b, set, hbase, hset, rfl, hformat, htargets, fun logger => ?_⟩
      rw [ownLevel_withLevels, ownLevel_withBase]
  · rintro (hbefore | ⟨b, set, hbase, hset, hafter, -⟩)
    · exact .inl hbefore
    · exact .inr ⟨b, set, hbase, hset, hafter⟩

/-- Settings with two levels of loggers; the second is unknown. -/
def loudSettings : Settings := { moduleLevels := [("test.quiet", "DEBUG"), ("test.loud", "nope")] }

/-- The log after a set-up that has failed at a logger's level. -/
def loudLogging : Logging :=
  { rootLevel := 20, levels := [("test.quiet", 10)], format := .json, targets := [.stream []] }

/-- An unknown level of a logger is found when the level, the targets and another logger's level
are set already. -/
theorem loud_configure_sets :
    ({} : Logging).configure loudSettings none (.int 0) = (loudLogging, .error .unknownLevel) ∧
    loudLogging.rootLevel ≠ ({} : Logging).rootLevel ∧
    loudLogging.targets ≠ ({} : Logging).targets ∧
    loudLogging.ownLevel "test.quiet" ≠ ({} : Logging).ownLevel "test.quiet" :=
  ⟨rfl, by decide, List.cons_ne_nil _ _, by decide⟩

end Logging

end Pigeonhole.Log
