import Pigeonhole.Proofs.Json.Assign
import Pigeonhole.Session.Connect

/-!
# Attempts to create containers

The creations of a connection proceed in any order.  With every turn a creation comes closer to its
end, whatever the service does (`turnsLeft_proceed`), so all end once each has had its turns
(`isDone_follow`).

A `Script` says what a service does with each try for each name.  A creation stands as the script
says after the tries that were made for its name (`Creation.Follows`), and it keeps doing so when
others proceed, as long as no two have one name (`Follows.follow`).  At the end the tries and the
result are read off the script (`reported_follow`).
-/

namespace Pigeonhole.Session

/-! ## Turns -/

namespace Creation

variable {σ : Type} {service : Service σ} {s : σ} {t : Creation}

def isDone (t : Creation) : Bool :=
  match t.stage with
  | .created _ | .abandoned => true
  | .fresh | .called => false

theorem begin_succ_of_none (h : (service.call s t.options.details).2 = none) (remaining : Nat) :
    begin service (remaining + 1) s t =
      ((service.call s t.options.details).1, { t with stage := .called }, []) := by
  rw [begin]
  cases hcall : service.call s t.options.details with
  | mk s' refusal =>
    rw [hcall] at h
    subst h
    rfl

theorem begin_succ_of_some {reason : String}
    (h : (service.call s t.options.details).2 = some reason) (remaining : Nat) :
    let next := begin service remaining (service.call s t.options.details).1 t.withFailure
    begin service (remaining + 1) s t =
      (next.1, next.2.1, t.failureRecord reason :: next.2.2) := by
  rw [begin]
  cases hcall : service.call s t.options.details with
  | mk s' refusal =>
    rw [hcall] at h
    subst h
    rfl

theorem proceed_of_fresh (h : t.stage = .fresh) :
    t.proceed service s = begin service maxAttempts s t := by
  simp only [proceed, h]

theorem proceed_of_isDone (h : t.isDone = true) : t.proceed service s = (s, t, []) := by
  cases hstage : t.stage <;> simp only [isDone, hstage] at h <;>
    first | contradiction | simp only [proceed, hstage]

theorem proceed_of_ok (h : t.stage = .called) {c : Container}
    (hanswer : (service.answer s t.options.details).2.1 = .ok c) :
    t.proceed service s = ((service.answer s t.options.details).1, { t with stage := .created c },
      (service.answer s t.options.details).2.2) := by
  simp only [proceed, h]
  cases hcall : service.answer s t.options.details with
  | mk s' answered =>
    obtain ⟨answer, records⟩ := answered
    rw [hcall] at hanswer
    subst hanswer
    rfl

theorem proceed_of_error (h : t.stage = .called) {reason : String}
    (hanswer : (service.answer s t.options.details).2.1 = .error reason) :
    let next := begin service (maxAttempts - (t.failed + 1))
      (service.answer s t.options.details).1 t.withFailure
    t.proceed service s = (next.1, next.2.1,
      (service.answer s t.options.details).2.2 ++ t.failureRecord reason :: next.2.2) := by
  simp only [proceed, h]
  cases hcall : service.answer s t.options.details with
  | mk s' answered =>
    obtain ⟨answer, records⟩ := answered
    rw [hcall] at hanswer
    subst hanswer
    rfl

theorem options_begin (service : Service σ) (remaining : Nat) (s : σ) (t : Creation) :
    (begin service remaining s t).2.1.options = t.options := by
  induction remaining generalizing s t with
  | zero => rfl
  | succ remaining ih =>
    cases h : (service.call s t.options.details).2 with
    | none => rw [begin_succ_of_none h]
    | some reason =>
      rw [begin_succ_of_some h]
      exact ih _ _

theorem options_proceed (service : Service σ) (s : σ) (t : Creation) :
    (t.proceed service s).2.1.options = t.options := by
  cases h : t.stage with
  | fresh => rw [proceed_of_fresh h, options_begin]
  | called =>
    cases hanswer : (service.answer s t.options.details).2.1 with
    | ok c => rw [proceed_of_ok h hanswer]
    | error reason =>
      rw [proceed_of_error h hanswer]
      exact options_begin _ _ _ _
  | created c => rw [proceed_of_isDone (by simp only [isDone, h])]
  | abandoned => rw [proceed_of_isDone (by simp only [isDone, h])]

/-- How many turns a creation takes at most until it has ended. -/
def turnsLeft (t : Creation) : Nat :=
  match t.stage with
  | .fresh => maxAttempts + 1
  | .called => maxAttempts - (t.failed + 1) + 1
  | .created _ | .abandoned => 0

theorem isDone_of_turnsLeft (h : t.turnsLeft = 0) : t.isDone = true := by
  unfold turnsLeft at h
  unfold isDone
  cases hstage : t.stage <;> simp only [hstage] at h ⊢ <;> omega

theorem turnsLeft_of_called (t : Creation) :
    ({ t with stage := .called } : Creation).turnsLeft = maxAttempts - (t.failed + 1) + 1 := rfl

theorem turnsLeft_begin_le (service : Service σ) (remaining : Nat) (s : σ) (t : Creation) :
    (begin service remaining s t).2.1.turnsLeft ≤ maxAttempts := by
  induction remaining generalizing s t with
  | zero => exact Nat.zero_le _
  | succ remaining ih =>
    cases h : (service.call s t.options.details).2 with
    | none =>
      rw [begin_succ_of_none h, turnsLeft_of_called]
      unfold maxAttempts
      omega
    | some reason =>
      rw [begin_succ_of_some h]
      exact ih _ _

/-- A creation that makes all tries it has left needs a turn for each of them at most. -/
theorem turnsLeft_begin (service : Service σ) {remaining : Nat} (s : σ) {t : Creation}
    (h : remaining = maxAttempts - t.failed) :
    (begin service remaining s t).2.1.turnsLeft ≤ remaining := by
  induction remaining generalizing s t with
  | zero => exact Nat.le_refl _
  | succ remaining ih =>
    cases hcall : (service.call s t.options.details).2 with
    | none =>
      rw [begin_succ_of_none hcall, turnsLeft_of_called]
      omega
    | some reason =>
      rw [begin_succ_of_some hcall]
      have hleft : remaining = maxAttempts - t.withFailure.failed := by
        show remaining = maxAttempts - (t.failed + 1)
        omega
      exact Nat.le_succ_of_le (ih _ hleft)

theorem turnsLeft_proceed (service : Service σ) (s : σ) (t : Creation) :
    (t.proceed service s).2.1.turnsLeft ≤ t.turnsLeft - 1 := by
  cases h : t.stage with
  | fresh =>
    have hfresh : t.turnsLeft = maxAttempts + 1 := by simp only [turnsLeft, h]
    rw [proceed_of_fresh h, hfresh]
    exact turnsLeft_begin_le service maxAttempts s t
  | called =>
    have hcalled : t.turnsLeft = maxAttempts - (t.failed + 1) + 1 := by simp only [turnsLeft, h]
    cases hanswer : (service.answer s t.options.details).2.1 with
    | ok c =>
      rw [proceed_of_ok h hanswer]
      exact Nat.zero_le _
    | error reason =>
      rw [proceed_of_error h hanswer, hcalled]
      exact turnsLeft_begin service _ rfl
  | created c =>
    have hdone : t.turnsLeft = 0 := by simp only [turnsLeft, h]
    rw [proceed_of_isDone (by simp only [isDone, h])]
    exact Nat.le_trans (Nat.le_of_eq hdone) (Nat.zero_le _)
  | abandoned =>
    have hdone : t.turnsLeft = 0 := by simp only [turnsLeft, h]
    rw [proceed_of_isDone (by simp only [isDone, h])]
    exact Nat.le_trans (Nat.le_of_eq hdone) (Nat.zero_le _)

end Creation

namespace Creations

variable {σ : Type} {service : Service σ} {all : Creations σ}

theorem proceed_of_getElem? {i : Nat} {t : Creation} (h : all.parts[i]? = some t) :
    all.proceed service i =
      { state := (t.proceed service all.state).1
        parts := all.parts.set i (t.proceed service all.state).2.1
        records := all.records ++ (t.proceed service all.state).2.2 } := by
  simp only [proceed, h]

theorem proceed_of_none {i : Nat} (h : all.parts[i]? = none) : all.proceed service i = all := by
  simp only [proceed, h]

theorem follow_cons (service : Service σ) (all : Creations σ) (i : Nat) (schedule : List Nat) :
    all.follow service (i :: schedule) = (all.proceed service i).follow service schedule := rfl

/-- The creation at a place after one of them has proceeded. -/
theorem getElem?_proceed (service : Service σ) (all : Creations σ) (i j : Nat) :
    (all.proceed service i).parts[j]? =
      if i = j then all.parts[j]?.map fun t => (t.proceed service all.state).2.1
      else all.parts[j]? := by
  cases h : all.parts[i]? with
  | none =>
    rw [proceed_of_none h]
    by_cases hij : i = j
    · rw [if_pos hij, ← hij, h]
      rfl
    · rw [if_neg hij]
  | some t =>
    rw [proceed_of_getElem? h, List.getElem?_set]
    have hi : i < all.parts.length := (List.getElem?_eq_some_iff.1 h).1
    by_cases hij : i = j
    · subst hij
      rw [if_pos rfl, if_pos hi, if_pos rfl, h]
      rfl
    · rw [if_neg hij, if_neg hij]

theorem options_follow (service : Service σ) (all : Creations σ) (schedule : List Nat) :
    (all.follow service schedule).parts.map (·.options) = all.parts.map (·.options) := by
  induction schedule generalizing all with
  | nil => rfl
  | cons i schedule ih =>
    rw [follow_cons, ih]
    apply List.ext_getElem?
    intro j
    rw [List.getElem?_map, List.getElem?_map, getElem?_proceed]
    by_cases hij : i = j
    · rw [if_pos hij, Option.map_map]
      congr 1
      funext t
      exact Creation.options_proceed service all.state t
    · rw [if_neg hij]

/-- Creations that have had their turns have ended. -/
theorem isDone_follow {schedule : List Nat}
    (h : ∀ i t, all.parts[i]? = some t → t.turnsLeft ≤ schedule.count i) :
    ∀ t ∈ (all.follow service schedule).parts, t.isDone = true := by
  induction schedule generalizing all with
  | nil =>
    intro t ht
    obtain ⟨i, hi⟩ := List.mem_iff_getElem?.1 ht
    exact Creation.isDone_of_turnsLeft (Nat.le_zero.1 (h i t hi))
  | cons i schedule ih =>
    rw [follow_cons]
    apply ih
    intro j t ht
    rw [getElem?_proceed] at ht
    by_cases hij : i = j
    · subst hij
      rw [if_pos rfl, Option.map_eq_some_iff] at ht
      obtain ⟨before, hbefore, rfl⟩ := ht
      have hturns := h i before hbefore
      have hnext := Creation.turnsLeft_proceed service all.state before
      rw [List.count_cons_self] at hturns
      omega
    · rw [if_neg hij] at ht
      have hturns := h j t ht
      rwa [List.count_cons_of_ne hij] at hturns

theorem isDone_follow_start (service : Service σ) (state : σ) {containers : List ContainerOptions}
    {schedule : List Nat} (h : ∀ i < containers.length, maxAttempts < schedule.count i) :
    ∀ t ∈ ((start state containers).follow service schedule).parts, t.isDone = true := by
  apply isDone_follow
  intro i t ht
  obtain ⟨options, hoptions, rfl⟩ := List.mem_map.1 (List.mem_of_getElem? ht)
  have hi : i < containers.length := by
    have hlength := (List.getElem?_eq_some_iff.1 ht).1
    rwa [start, List.length_map] at hlength
  exact h i hi

end Creations

/-! ## Scripts -/

/-- What a service does with a try. -/
inductive Reaction where
  /-- Refuses the call at once. -/
  | refuse (reason : String)
  /-- Takes the call, and answers that there is no container. -/
  | fail (reason : String)
  | create (c : Container)

namespace Reaction

def container? : Reaction → Option Container
  | create c => some c
  | refuse _ | fail _ => none

def refusal? : Reaction → Option String
  | refuse reason => some reason
  | fail _ | create _ => none

def answer : Reaction → Except String Container
  | create c => .ok c
  | refuse reason | fail reason => .error reason

theorem container?_of_refusal? {r : Reaction} {reason : String} (h : r.refusal? = some reason) :
    r.container? = none := by
  cases r with
  | refuse => rfl
  | fail | create => cases h

theorem container?_of_answer_ok {r : Reaction} {c : Container} (h : r.answer = .ok c) :
    r.container? = some c := by
  cases r with
  | create => exact congrArg some (Except.ok.inj h)
  | refuse | fail => cases h

theorem container?_of_answer_error {r : Reaction} {reason : String} (h : r.answer = .error reason) :
    r.container? = none := by
  cases r with
  | create => cases h
  | refuse | fail => rfl

end Reaction

/-- What a service does with each try for a container, by its name and by the number of the try,
from one on. -/
abbrev Script := String → Nat → Reaction

namespace Script

/-- The service that follows a script.  Its state are the names of all calls so far. -/
def service (script : Script) : Service (List String) where
  call calls details :=
    let name := Backend.requestedName details
    let calls := calls ++ [name]
    (calls, (script name (calls.count name)).refusal?)
  answer calls details :=
    let name := Backend.requestedName details
    (calls, (script name (calls.count name)).answer, [])

/-- The first tries for a name, as many as a number says, fail. -/
def Fails (script : Script) (name : String) (number : Nat) : Prop :=
  ∀ k, 1 ≤ k → k ≤ number → (script name k).container? = none

/-- A try is the first that succeeds, with a container. -/
structure FirstSuccess (script : Script) (name : String) (k : Nat) (c : Container) : Prop where
  pos : 1 ≤ k
  container : (script name k).container? = some c
  fails : script.Fails name (k - 1)

/-- Whether no try for a name succeeds. -/
def exhausts (script : Script) (name : String) : Bool :=
  (List.range maxAttempts).all fun k => (script name (k + 1)).container?.isNone

variable {script : Script} {name : String}

theorem fails_zero : script.Fails name 0 := by
  intro k hk hle
  omega

theorem Fails.succ {n : Nat} (h : script.Fails name n)
    (hnext : (script name (n + 1)).container? = none) : script.Fails name (n + 1) := by
  intro k hk hle
  by_cases hlast : k = n + 1
  · rw [hlast, hnext]
  · exact h k hk (by omega)

theorem exhausts_iff : script.exhausts name = true ↔ script.Fails name maxAttempts := by
  simp only [exhausts, List.all_eq_true, List.mem_range, Option.isNone_iff_eq_none]
  constructor
  · intro h k hk hle
    have hprevious := h (k - 1) (by omega)
    rwa [Nat.sub_add_cancel hk] at hprevious
  · intro h k hk
    exact h (k + 1) (by omega) (by omega)

/-- All tries before the first that succeeds fail. -/
theorem FirstSuccess.lt {k n : Nat} {c : Container} (h : script.FirstSuccess name k c)
    (hfails : script.Fails name n) : n < k := by
  by_contra hle
  have hnone := hfails k h.pos (by omega)
  rw [h.container] at hnone
  contradiction

theorem call_details (script : Script) (calls : List String) (options : ContainerOptions) :
    script.service.call calls options.details =
      (calls ++ [options.name],
        (script options.name (calls.count options.name + 1)).refusal?) := by
  have hname : Backend.requestedName options.details = options.name := rfl
  simp only [service, hname, List.count_append, List.count_singleton_self]

theorem answer_details (script : Script) (calls : List String) (options : ContainerOptions) :
    script.service.answer calls options.details =
      (calls, (script options.name (calls.count options.name)).answer, []) := rfl

end Script

/-- How a creation stands after a number of tries for its name: those that it counts have failed,
and there is one more that is not answered or has brought a container. -/
def Creation.Follows (script : Script) (t : Creation) (tries : Nat) : Prop :=
  script.Fails t.options.name t.failed ∧
    match t.stage with
    | .fresh => t.failed = 0 ∧ tries = 0
    | .called => t.failed < maxAttempts ∧ tries = t.failed + 1
    | .created c => t.failed < maxAttempts ∧ tries = t.failed + 1 ∧
        (script t.options.name tries).container? = some c
    | .abandoned => t.failed = maxAttempts ∧ tries = maxAttempts

namespace Creation

variable {script : Script} {calls : List String} {t : Creation}

/-- The tries for one name leave the numbers of tries for other names alone. -/
theorem follows_begin {remaining : Nat} (hremaining : t.failed + remaining = maxAttempts)
    (hcount : calls.count t.options.name = t.failed)
    (hfails : script.Fails t.options.name t.failed) :
    let next := begin script.service remaining calls t
    next.2.1.Follows script (next.1.count t.options.name) ∧
      ∀ other, other ≠ t.options.name → next.1.count other = calls.count other := by
  induction remaining generalizing calls t with
  | zero =>
    refine ⟨⟨hfails, ?_⟩, fun _ _ => rfl⟩
    show t.failed = maxAttempts ∧ calls.count t.options.name = maxAttempts
    omega
  | succ remaining ih =>
    have hcall := script.call_details calls t.options
    have hself : (calls ++ [t.options.name]).count t.options.name = t.failed + 1 := by
      rw [List.count_append, List.count_singleton_self, hcount]
    have hothers : ∀ other, other ≠ t.options.name →
        (calls ++ [t.options.name]).count other = calls.count other := by
      intro other hother
      rw [List.count_append, List.count_singleton, beq_false_of_ne (Ne.symm hother)]
      rfl
    rw [hcount] at hcall
    cases hrefusal : (script t.options.name (t.failed + 1)).refusal? with
    | none =>
      rw [begin_succ_of_none (by rw [hcall, hrefusal]), hcall]
      refine ⟨⟨hfails, ?_⟩, hothers⟩
      show t.failed < maxAttempts ∧ (calls ++ [t.options.name]).count t.options.name = t.failed + 1
      omega
    | some reason =>
      have hsome : (script.service.call calls t.options.details).2 = some reason := by
        rw [hcall, hrefusal]
      rw [begin_succ_of_some hsome, hcall]
      have hnext : t.withFailure.failed + remaining = maxAttempts := by
        show t.failed + 1 + remaining = maxAttempts
        omega
      obtain ⟨hfollows, hsame⟩ :=
        ih hnext hself (hfails.succ (Reaction.container?_of_refusal? hrefusal))
      exact ⟨hfollows, fun other hother => (hsame other hother).trans (hothers other hother)⟩

theorem Follows.proceed (h : t.Follows script (calls.count t.options.name)) :
    let next := t.proceed script.service calls
    next.2.1.Follows script (next.1.count t.options.name) ∧
      ∀ other, other ≠ t.options.name → next.1.count other = calls.count other := by
  obtain ⟨hfails, hstage⟩ := h
  cases hs : t.stage with
  | fresh =>
    rw [hs] at hstage
    rw [proceed_of_fresh hs]
    apply follows_begin _ _ hfails
    · omega
    · omega
  | called =>
    rw [hs] at hstage
    have hanswer := script.answer_details calls t.options
    cases hresult : (script t.options.name (calls.count t.options.name)).answer with
    | ok c =>
      have hok : (script.service.answer calls t.options.details).2.1 = .ok c := by
        rw [hanswer, hresult]
      rw [proceed_of_ok hs hok, hanswer]
      exact ⟨⟨hfails, hstage.1, hstage.2, Reaction.container?_of_answer_ok hresult⟩,
        fun _ _ => rfl⟩
    | error reason =>
      have herror : (script.service.answer calls t.options.details).2.1 = .error reason := by
        rw [hanswer, hresult]
      have hnone := Reaction.container?_of_answer_error hresult
      rw [hstage.2] at hnone
      rw [proceed_of_error hs herror, hanswer]
      apply follows_begin (t := t.withFailure) _ hstage.2 (hfails.succ hnone)
      show t.failed + 1 + (maxAttempts - (t.failed + 1)) = maxAttempts
      omega
  | created c =>
    rw [proceed_of_isDone (by simp only [isDone, hs])]
    exact ⟨⟨hfails, hstage⟩, fun _ _ => rfl⟩
  | abandoned =>
    rw [proceed_of_isDone (by simp only [isDone, hs])]
    exact ⟨⟨hfails, hstage⟩, fun _ _ => rfl⟩

/-- A creation that has ended has the container of the first try that succeeds, or none after all
tries have failed. -/
theorem Follows.cases_of_isDone {tries : Nat} (h : t.Follows script tries)
    (hdone : t.isDone = true) :
    (∃ c, t.container? = some c ∧ script.FirstSuccess t.options.name tries c ∧
        tries ≤ maxAttempts) ∨
      t.container? = none ∧ script.Fails t.options.name maxAttempts ∧ tries = maxAttempts := by
  obtain ⟨hfails, hstage⟩ := h
  cases hs : t.stage with
  | fresh | called => simp only [isDone, hs, Bool.false_eq_true] at hdone
  | created c =>
    rw [hs] at hstage
    obtain ⟨hlt, rfl, hcreated⟩ := hstage
    exact .inl ⟨c, by simp only [container?, hs], ⟨by omega, hcreated, hfails⟩, hlt⟩
  | abandoned =>
    rw [hs] at hstage
    obtain ⟨hall, htries⟩ := hstage
    exact .inr ⟨by simp only [container?, hs], hall ▸ hfails, htries⟩

end Creation

/-! ## Results -/

namespace Creations

variable {script : Script} {all : Creations (List String)}

/-- All creations stand as the script says after the calls that were made. -/
def Follows (script : Script) (all : Creations (List String)) : Prop :=
  ∀ t ∈ all.parts, t.Follows script (all.state.count t.options.name)

theorem follows_start (script : Script) (containers : List ContainerOptions) :
    Follows script (start [] containers) := by
  intro t ht
  obtain ⟨options, -, rfl⟩ := List.mem_map.1 ht
  exact ⟨Script.fails_zero, rfl, rfl⟩

/-- The creation that proceeds makes its own tries; the others have other names. -/
theorem Follows.proceed (h : Follows script all)
    (hnames : (all.parts.map (·.options.name)).Nodup) (i : Nat) :
    Follows script (all.proceed script.service i) := by
  cases hi : all.parts[i]? with
  | none => rwa [proceed_of_none hi]
  | some t =>
    obtain ⟨hself, hothers⟩ := (h t (List.mem_of_getElem? hi)).proceed
    intro u hu
    obtain ⟨j, hj⟩ := List.mem_iff_getElem?.1 hu
    rw [getElem?_proceed] at hj
    rw [proceed_of_getElem? hi]
    by_cases hij : i = j
    · subst hij
      rw [if_pos rfl, hi, Option.map_some, Option.some.injEq] at hj
      subst hj
      rwa [Creation.options_proceed]
    · rw [if_neg hij] at hj
      have hname : u.options.name ≠ t.options.name := by
        intro heq
        have hlength : i < (all.parts.map (·.options.name)).length := by
          rw [List.length_map]
          exact (List.getElem?_eq_some_iff.1 hi).1
        refine hij ((List.getElem?_inj hlength hnames).1 ?_)
        rw [List.getElem?_map, List.getElem?_map, hi, hj, Option.map_some, Option.map_some, heq]
      show u.Follows script ((t.proceed script.service all.state).1.count u.options.name)
      rw [hothers _ hname]
      exact h u (List.mem_of_getElem? hj)

theorem Follows.follow (h : Follows script all) (hnames : (all.parts.map (·.options.name)).Nodup)
    (schedule : List Nat) : Follows script (all.follow script.service schedule) := by
  induction schedule generalizing all with
  | nil => exact h
  | cons i schedule ih =>
    rw [follow_cons]
    apply ih (h.proceed hnames i)
    have hoptions := options_follow script.service all [i]
    have hmap : ∀ parts : List Creation,
        parts.map (·.options.name) = (parts.map (·.options)).map (·.name) := by
      intro parts
      rw [List.map_map]
      rfl
    rw [hmap, show (all.proceed script.service i).parts.map (·.options) = _ from hoptions, ← hmap]
    exact hnames

end Creations

/-- What is reported of containers that a service creates by a script: the number of tries for each
name; a connection to the containers of their first successes, in order; or the names for which all
tries failed, in order. -/
structure Reported (script : Script) (containers : List ContainerOptions) (id : String)
    (calls : List String) (result : Except Failure Connection) : Prop where
  tries : ∀ o ∈ containers, ∀ k c, script.FirstSuccess o.name k c →
    calls.count o.name = min k maxAttempts
  tries_of_exhausts : ∀ o ∈ containers, script.exhausts o.name = true →
    calls.count o.name = maxAttempts
  connected : (∀ o ∈ containers, script.exhausts o.name = false) →
    ∃ found : List Container,
      List.Forall₂ (fun o c => ∃ k ≤ maxAttempts, script.FirstSuccess o.name k c) containers found ∧
        result = .ok { database := id, containers := (containers.map (·.name)).zip found }
  failed : (∃ o ∈ containers, script.exhausts o.name = true) →
    result = .error (.containersFailed
      ((containers.filter fun o => script.exhausts o.name).map (·.name)))

namespace Creations

variable {script : Script} {all : Creations (List String)}

theorem Follows.exhausts_iff (h : Follows script all) (hdone : ∀ t ∈ all.parts, t.isDone = true)
    {t : Creation} (ht : t ∈ all.parts) :
    script.exhausts t.options.name = true ↔ t.container? = none := by
  rw [Script.exhausts_iff]
  obtain ⟨c, hc, hfirst, hle⟩ | ⟨hnone, hfails, -⟩ := (h t ht).cases_of_isDone (hdone t ht)
  · have hnot : ¬ script.Fails t.options.name maxAttempts := by
      intro hfails
      have hlt := hfirst.lt hfails
      omega
    simp [hnot, hc]
  · simp [hfails, hnone]

theorem Follows.failures_eq (h : Follows script all)
    (hdone : ∀ t ∈ all.parts, t.isDone = true) :
    all.failures =
      ((all.parts.map (·.options)).filter fun o => script.exhausts o.name).map (·.name) := by
  rw [failures, List.filter_map, List.map_map]
  congr 1
  apply List.filter_congr
  intro t ht
  rw [Bool.eq_iff_iff, Option.isNone_iff_eq_none]
  exact (h.exhausts_iff hdone ht).symm

/-- The containers of creations that all have one, beside the options that they belong to. -/
theorem exists_found {P : ContainerOptions → Container → Prop} {parts : List Creation}
    (h : ∀ t ∈ parts, ∃ c, t.container? = some c ∧ P t.options c) :
    ∃ found : List Container, List.Forall₂ P (parts.map (·.options)) found ∧
      (parts.filterMap fun t => t.container?.map (t.options.name, ·)) =
        ((parts.map (·.options)).map (·.name)).zip found := by
  induction parts with
  | nil => exact ⟨[], .nil, rfl⟩
  | cons t parts ih =>
    obtain ⟨c, hc, hP⟩ := h t List.mem_cons_self
    obtain ⟨found, hfound, hpairs⟩ := ih fun u hu => h u (List.mem_cons_of_mem t hu)
    refine ⟨c :: found, .cons hP hfound, ?_⟩
    rw [List.filterMap_cons, hc, Option.map_some, hpairs]
    rfl

theorem Follows.reported (h : Follows script all) (hdone : ∀ t ∈ all.parts, t.isDone = true)
    (hnames : ((all.parts.map (·.options)).map (·.name)).Nodup) (name id : String) :
    Reported script (all.parts.map (·.options)) id all.state (all.outcome name id).result where
  tries o ho k c hfirst := by
    obtain ⟨t, ht, rfl⟩ := List.mem_map.1 ho
    obtain ⟨c', -, hfound, hle⟩ | ⟨-, hfails, hcount⟩ := (h t ht).cases_of_isDone (hdone t ht)
    · have hbefore := hfirst.lt hfound.fails
      have hafter := hfound.lt hfirst.fails
      have hpos := hfirst.pos
      omega
    · have hlt := hfirst.lt hfails
      omega
  tries_of_exhausts o ho hexhausts := by
    obtain ⟨t, ht, rfl⟩ := List.mem_map.1 ho
    have hnone := (h.exhausts_iff hdone ht).1 hexhausts
    obtain ⟨c, hc, -⟩ | ⟨-, -, hcount⟩ := (h t ht).cases_of_isDone (hdone t ht)
    · rw [hc] at hnone
      contradiction
    · exact hcount
  connected hall := by
    have hcreated : ∀ t ∈ all.parts, ∃ c, t.container? = some c ∧
        ∃ k ≤ maxAttempts, script.FirstSuccess t.options.name k c := by
      intro t ht
      obtain ⟨c, hc, hfirst, hle⟩ | ⟨-, hfails, -⟩ := (h t ht).cases_of_isDone (hdone t ht)
      · exact ⟨c, hc, _, hle, hfirst⟩
      · have hnot := hall t.options (List.mem_map_of_mem ht)
        rw [Script.exhausts_iff.2 hfails] at hnot
        contradiction
    obtain ⟨found, hfound, hpairs⟩ :=
      exists_found (P := fun o c => ∃ k ≤ maxAttempts, script.FirstSuccess o.name k c) hcreated
    refine ⟨found, hfound, ?_⟩
    have hfailures : all.failures = [] := by
      rw [h.failures_eq hdone, List.filter_eq_nil_iff.2, List.map_nil]
      intro o ho
      rw [hall o ho]
      exact Bool.false_ne_true
    have hkeys : (((all.parts.map (·.options)).map (·.name)).zip found).map (·.1) =
        (all.parts.map (·.options)).map (·.name) := by
      apply List.map_fst_zip
      rw [List.length_map]
      exact Nat.le_of_eq hfound.length_eq
    rw [outcome, hfailures, created, hpairs, assignAll_of_nodup (by rwa [hkeys])]
    rfl
  failed hsome := by
    obtain ⟨o, ho, hexhausts⟩ := hsome
    have hfailures : all.failures.isEmpty = false := by
      rw [h.failures_eq hdone, List.isEmpty_eq_false_iff]
      exact List.ne_nil_of_mem (List.mem_map_of_mem (List.mem_filter.2 ⟨ho, hexhausts⟩))
    rw [outcome, hfailures, ← h.failures_eq hdone]
    rfl

end Creations

/-- Containers with different names are created with a service that follows any script, in any order
of turns.  Once each has had its turns, all creations have ended; and when they have, the tries and
the outcome are reported as the script says. -/
theorem reported_follow (script : Script) (options : ConnectionOptions) (schedule : List Nat)
    (id : String) (hnames : (options.containers.map (·.name)).Nodup) :
    let all := (Creations.start [] options.containers).follow script.service schedule
    ((∀ i < options.containers.length, maxAttempts < schedule.count i) →
        ∀ t ∈ all.parts, t.isDone = true) ∧
      ((∀ t ∈ all.parts, t.isDone = true) →
        Reported script options.containers id all.state (all.outcome options.name id).result) := by
  intro all
  have hoptions : all.parts.map (·.options) = options.containers := by
    rw [Creations.options_follow, Creations.start, List.map_map]
    exact List.map_id _
  have hstart : ((Creations.start ([] : List String) options.containers).parts.map
      (·.options.name)).Nodup := by
    rw [Creations.start, List.map_map]
    exact hnames
  have hfollows := (Creations.follows_start script options.containers).follow hstart schedule
  refine ⟨Creations.isDone_follow_start script.service [], fun hdone => ?_⟩
  have hreported := hfollows.reported hdone (by rwa [hoptions]) options.name id
  rwa [hoptions] at hreported

/-- One container is refused, then not created, then created; the other is never created.  They take
turns, the second first. -/
theorem reported_follow_two :
    let script : Script := fun name k =>
      if name = "a" then
        match k with
        | 1 => .refuse "busy"
        | 2 => .fail "late"
        | _ => .create (Container.create { id := "a", partitionKey := { paths := ["/pk"] } } (.int 1))
      else .fail "full"
    let options : ConnectionOptions :=
      { name := "db", containers := [{ name := "a", partitionKey := "pk" },
          { name := "b", partitionKey := "pk" }] }
    let all := (Creations.start [] options.containers).follow script.service
      [1, 0, 1, 1, 0, 0, 1]
    (options.containers.map (·.name)).Nodup ∧ (∀ t ∈ all.parts, t.isDone = true) ∧
      all.state.count "a" = 3 ∧ all.state.count "b" = 3 ∧
      (all.outcome "db" "db").result = .error (.containersFailed ["b"]) := by
  intro script options all
  have hnames : (options.containers.map (·.name)).Nodup := by decide
  obtain ⟨-, hreported⟩ := reported_follow script options [1, 0, 1, 1, 0, 0, 1] "db" hnames
  have hdone : ∀ t ∈ all.parts, t.isDone = true := by decide
  have hb : script.exhausts "b" = true := by decide
  have ha : script.FirstSuccess "a" 3
      (Container.create { id := "a", partitionKey := { paths := ["/pk"] } } (.int 1)) := by
    refine ⟨by decide, rfl, fun k hk hle => ?_⟩
    obtain rfl | rfl : k = 1 ∨ k = 2 := by omega
    · rfl
    · rfl
  have hall := hreported hdone
  refine ⟨hnames, hdone, ?_, ?_, ?_⟩
  · exact hall.tries { name := "a", partitionKey := "pk" } List.mem_cons_self 3 _ ha
  · exact hall.tries_of_exhausts { name := "b", partitionKey := "pk" }
      (List.mem_cons_of_mem _ List.mem_cons_self) hb
  · exact hall.failed ⟨{ name := "b", partitionKey := "pk" },
      List.mem_cons_of_mem _ List.mem_cons_self, hb⟩

end Pigeonhole.Session
