import Mathlib.Logic.Function.Defs
import Pigeonhole.Log.Setup
import Pigeonhole.Proofs.Session.Events

/-!
# Nested blocks

A `Program` logs inside blocks, which bind a correlation id: scopes, which may be given one, and
actions, the calls to containers among them.  Blocks nest, and an exception may leave any of them.
Where an id is bound already no other one is made, so inside a block only the ids that blocks are
given count (`Settled`); a block around which no id is bound makes one, unless it is given one
(`Apart`).  Hence a record carries the id that the innermost block is given, or else the one that
was made for the outermost block, which no other block shares (`scopes_nest`).
-/

namespace Pigeonhole.Session

open Log

/-! ## Programs -/

/-- An exception. -/
structure Raised where
  text : String
  /-- Whether it is one that actions report; a cancellation is not. -/
  reported : Bool := true

/-- A program that logs. -/
inductive Program where
  | skip
  | seq (first second : Program)
  /-- A plain record. -/
  | note (level : Level) (logger message : String)
  /-- A record with a context. -/
  | log (level : Level) (logger message : String) (context : List (String × Value))
  /-- An exception. -/
  | fail (e : Raised)
  /-- Exceptions are caught. -/
  | attempt (body : Program)
  /-- A scope, which may be given an id. -/
  | scope (given : Option String) (body : Program)
  /-- An action that is not a call: a scope that reports exceptions under a tag. -/
  | action (tag : String) (body : Program)
  /-- A call to the container with a name, which takes so many milliseconds; an exception if there is
  none. -/
  | call (name : String) (elapsed : Double) (call : Call)

/-- A block that has been entered. -/
structure Block where
  /-- How many blocks were entered before. -/
  number : Nat
  /-- The id that the block is given. -/
  given : Option String

/-- The id that a block is given; an empty one counts as none. -/
def Block.id? (b : Block) : Option String := b.given.filter (!·.isEmpty)

/-- The id that the innermost of some blocks is given, innermost first. -/
def givenId? (blocks : List Block) : Option String := blocks.findSome? Block.id?

/-- A record with the blocks around it, innermost first. -/
structure Entry where
  around : List Block
  record : Record

namespace Entry

/-- The correlation id that a record carries. -/
def id? (e : Entry) : Option String := e.record.correlationId

/-- Whether a record carries the id that is given to the innermost of the blocks inside some outer
ones, or this id if none of them is given one. -/
def Carries (e : Entry) (outer : List Block) (id : String) : Prop :=
  ∃ inner, e.around = inner ++ outer ∧ e.id? = some ((givenId? inner).getD id)

/-- Whether no block around a record is given an id, and the outermost one is this. -/
structure UngivenIn (e : Entry) (b : Block) : Prop where
  outermost : e.around.getLast? = some b
  ungiven : givenId? e.around = none

end Entry

/-- What a program runs in. -/
structure World where
  correlation : Correlation := {}
  /-- How many blocks have been entered. -/
  entered : Nat := 0
  containers : List (String × Container) := []

namespace World

/-- Inside a block. -/
def enter (supply : Nat → String) (given : Option String) (w : World) : World :=
  { w with correlation := w.correlation.enter supply given, entered := w.entered + 1 }

/-- After a block. -/
def leave (before inside : World) : World :=
  { inside with correlation := before.correlation.leave inside.correlation }

/-- A record that is logged, as it leaves the first filter of every target. -/
def entry (w : World) (around : List Block) (record : Record) : Entry :=
  ⟨around, Filter.correlation.apply w.correlation.current record⟩

end World

/-- What a run leaves behind. -/
structure Run where
  world : World
  entries : List Entry := []
  /-- The exception that ended the run. -/
  raised : Option Raised := none

/-- What runs inside blocks. -/
abbrev Body := List Block → World → Run

namespace Body

/-- One body after the other, unless an exception ends the first. -/
def andThen (first second : Body) : Body := fun around w =>
  let done := first around w
  match done.raised with
  | some _ => done
  | none =>
    let rest := second around done.world
    { rest with entries := done.entries ++ rest.entries }

/-- The body without its exceptions. -/
def attempted (body : Body) : Body := fun around w => { body around w with raised := none }

/-- The body in a block of its own. -/
def inBlock (supply : Nat → String) (given : Option String) (body : Body) : Body := fun around w =>
  let done := body (⟨w.entered, given⟩ :: around) (w.enter supply given)
  { done with world := w.leave done.world }

/-- The body with a record of its exception, under the id bound at its beginning. -/
def reporting (tag : String) (body : Body) : Body := fun around w =>
  let done := body around w
  match done.raised with
  | none | some ⟨_, false⟩ => done
  | some ⟨text, true⟩ =>
    let record := (Record.plain .error callLogger (tag ++ ": " ++ text)).withCorrelation
      w.correlation.current
    { done with entries := done.entries ++ [done.world.entry around record] }

/-- A call to a container, with the id that is bound. -/
def answering (name : String) (c : Container) (elapsed : Double) (call : Call) : Body :=
  fun around w =>
  let o := Session.run name (w.correlation.current.getD "") c elapsed call
  { world := { w with containers := assign name o.state w.containers }
    entries := o.records.map (w.entry around)
    raised := match o.result with
      | .ok _ => none
      | .error e => some ⟨e.text, true⟩ }

end Body

/-- The run of a program inside blocks. -/
def Program.run (supply : Nat → String) : Program → Body
  | skip => fun _ w => { world := w }
  | seq first second => (first.run supply).andThen (second.run supply)
  | note level logger message => fun around w =>
    { world := w, entries := [w.entry around (.plain level logger message)] }
  | log level logger message context => fun around w =>
    match recordWithContext? level logger message context w.correlation.current with
    | some record => { world := w, entries := [w.entry around record] }
    | none => { world := w, raised := some ⟨"multiple values for a part of the record", true⟩ }
  | fail e => fun _ w => { world := w, raised := some e }
  | attempt body => (body.run supply).attempted
  | scope given body => (body.run supply).inBlock supply given
  | action tag body => ((body.run supply).reporting tag).inBlock supply none
  | call name elapsed request => fun around w =>
    match w.containers.lookup name with
    | none => { world := w, raised := some ⟨name, true⟩ }
    | some c =>
      let (correlation, o) := perform supply w.correlation name c elapsed request
      let block : Block := ⟨w.entered, none⟩
      { world :=
          { correlation, entered := w.entered + 1, containers := assign name o.state w.containers }
        entries := o.records.map ((w.enter supply none).entry (block :: around))
        raised := match o.result with
          | .ok _ => none
          | .error e => some ⟨e.text, true⟩ }

variable {supply : Nat → String}

/-- A call is answered in a block of its own. -/
theorem run_call {w : World} {name : String} {c : Container}
    (h : w.containers.lookup name = some c) (elapsed : Double) (request : Call)
    (around : List Block) :
    (Program.call name elapsed request).run supply around w =
      (Body.answering name c elapsed request).inBlock supply none around w := by
  simp only [Program.run, h]
  rfl

/-! ## Records of calls -/

/-- A record is left to the filter to stamp, or stamped with an id. -/
def StampedBy (id : String) (record : Record) : Prop :=
  record.correlation = none ∨ record.correlation = some (some id)

/-- An operation of a container stamps no record. -/
def Unstamped {α : Type} (o : Outcome Container α) : Prop :=
  ∀ record ∈ o.records, record.correlation = none

section Unstamped

variable (c : Container) (elapsed : Double)

theorem unstamped_upsert (item : Value) : Unstamped (c.upsert elapsed item) := by
  unfold Container.upsert
  cases c.store.upsert item with
  | error e => exact List.forall_mem_nil _
  | ok stored => exact List.forall_mem_singleton.2 rfl

theorem unstamped_read (address : Address) : Unstamped (c.read elapsed address) := by
  unfold Container.read
  cases c.store.read address with
  | error e => exact List.forall_mem_nil _
  | ok found =>
    cases address.id.display? with
    | error fault => exact List.forall_mem_nil _
    | ok shown => exact List.forall_mem_singleton.2 rfl

theorem unstamped_delete (address : Address) : Unstamped (c.delete elapsed address) := by
  unfold Container.delete
  cases c.store.delete address with
  | error e => exact List.forall_mem_nil _
  | ok removed => exact List.forall_mem_cons.2 ⟨rfl, List.forall_mem_singleton.2 rfl⟩

theorem unstamped_feed (description : String) (found : Except Failure (List Json)) :
    Unstamped (c.feed elapsed description found) := by
  cases found with
  | error e => exact List.forall_mem_nil _
  | ok resources => exact List.forall_mem_singleton.2 rfl

theorem unstamped_readAll (options : Value) : Unstamped (c.readAll elapsed options) := by
  unfold Container.readAll
  cases FeedOptions.ofValue options with
  | error e => exact List.forall_mem_nil _
  | ok feed => exact unstamped_feed c elapsed _ _

theorem unstamped_query (query options : Value) : Unstamped (c.query elapsed query options) := by
  unfold Container.query
  cases FeedOptions.ofValue options with
  | error e => exact List.forall_mem_nil _
  | ok feed => exact unstamped_feed c elapsed _ _

end Unstamped

theorem stampedBy_record (id : String) (t : Telemetry) : StampedBy id (t.record id) := by
  unfold Telemetry.record
  cases t.context? with
  | some context => exact .inr rfl
  | none => exact .inl rfl

theorem stampedBy_finish {α : Type} {o : Outcome Container α} (h : Unstamped o) (id tag : String)
    (answer : α → Json) (telemetry : α → Telemetry) :
    ∀ record ∈ (finish id tag o answer telemetry).records, StampedBy id record := by
  have hplain : ∀ record ∈ o.records, StampedBy id record := fun record hr => .inl (h record hr)
  unfold finish
  cases o.result with
  | ok a =>
    exact List.forall_mem_append.2
      ⟨hplain, List.forall_mem_singleton.2 (stampedBy_record id (telemetry a))⟩
  | error e => exact List.forall_mem_append.2 ⟨hplain, List.forall_mem_singleton.2 (.inr rfl)⟩

/-- Every record of a call is plain or stamped with the id of the call. -/
theorem stampedBy_run (name id : String) (c : Container) (elapsed : Double) (request : Call) :
    ∀ record ∈ (Session.run name id c elapsed request).records, StampedBy id record := by
  cases request with
  | getItem item key => exact stampedBy_finish (unstamped_read c elapsed _) _ _ _ _
  | getItems key => exact stampedBy_finish (unstamped_readAll c elapsed _) _ _ _ _
  | getIds _ | getCount | query _ _ => exact stampedBy_finish (unstamped_query c elapsed _ _) _ _ _ _
  | upsertItem item => exact stampedBy_finish (unstamped_upsert c elapsed item) _ _ _ _
  | deleteItem item key => exact stampedBy_finish (unstamped_delete c elapsed _) _ _ _ _

/-! ## The id after a block -/

/-- However a program ends, the id is bound that was bound before. -/
theorem current_run (supply : Nat → String) (p : Program) (around : List Block) (w : World) :
    (p.run supply around w).world.correlation.current = w.correlation.current := by
  induction p generalizing around w with
  | skip | note | fail => rfl
  | log level logger message context =>
    simp only [Program.run]
    split <;> rfl
  | seq first second ihfirst ihsecond =>
    simp only [Program.run, Body.andThen]
    split
    · exact ihfirst around w
    · rw [ihsecond, ihfirst]
  | attempt body ih => exact ih around w
  | scope | action => rfl
  | call name elapsed request =>
    simp only [Program.run]
    split <;> rfl

/-! ## Records -/

section Entries

variable {w : World} {around : List Block} {record : Record}

/-- A record carries the id that is bound, whether it is stamped with it or not. -/
theorem id?_entry
    (h : record.correlation = none ∨ record.correlation = some w.correlation.current) :
    (w.entry around record).id? = w.correlation.current.filter (!·.isEmpty) := by
  rcases h with h | h <;>
    simp [World.entry, Entry.id?, Filter.apply, Record.withCorrelation, Record.correlationId, h]

theorem correlation_of_recordWithContext? {level : Level} {logger message : String}
    {context : List (String × Value)} {current : Option String}
    (h : recordWithContext? level logger message context current = some record) :
    record.correlation = some current := by
  unfold recordWithContext? at h
  split at h
  · cases h
  · obtain rfl := Option.some.inj h
    rfl

end Entries

/-! ## Inside a block -/

/-- What a body leaves behind where an id is bound: the ids are as before, and every record carries
the id that is given to the innermost of the blocks it enters, else the one that was bound. -/
structure Inside (around : List Block) (id : String) (w : World) (done : Run) : Prop where
  correlation : done.world.correlation = w.correlation
  entered : w.entered ≤ done.world.entered
  carried : ∀ e ∈ done.entries, e.Carries around id

/-- A body makes no id where one is bound. -/
def Body.Settled (body : Body) : Prop :=
  ∀ around w id, w.correlation.current = some id → id ≠ "" → Inside around id w (body around w)

section Settled

variable {around : List Block} {w : World} {id : String} {body first second : Body}

theorem givenId?_append (inner outer : List Block) :
    givenId? (inner ++ outer) = (givenId? inner).or (givenId? outer) := List.findSome?_append

theorem givenId?_singleton (b : Block) : givenId? [b] = b.id? := by
  simp [givenId?]

/-- A record of a body itself. -/
theorem carries_entry (hcurrent : w.correlation.current = some id) (hid : id ≠ "")
    {record : Record} (h : StampedBy id record) : (w.entry around record).Carries around id := by
  refine ⟨[], rfl, ?_⟩
  rw [id?_entry (h.imp_right fun h => by rw [h, hcurrent]), hcurrent]
  simp [givenId?, hid]

theorem Inside.of_entries {entries : List Entry} {raised : Option Raised} {w' : World}
    (hcorrelation : w'.correlation = w.correlation) (hentered : w.entered ≤ w'.entered)
    (hcurrent : w.correlation.current = some id) (hid : id ≠ "")
    (h : ∀ e ∈ entries, ∃ record, StampedBy id record ∧ e = w.entry around record) :
    Inside around id w { world := w', entries, raised } where
  correlation := hcorrelation
  entered := hentered
  carried e he := by
    obtain ⟨record, hrecord, rfl⟩ := h e he
    exact carries_entry hcurrent hid hrecord

theorem Body.Settled.andThen (hfirst : first.Settled) (hsecond : second.Settled) :
    (first.andThen second).Settled := by
  intro around w id hcurrent hid
  have h₁ := hfirst around w id hcurrent hid
  unfold Body.andThen
  cases hraised : (first around w).raised with
  | some e => simpa only [hraised] using h₁
  | none =>
    simp only [hraised]
    have h₂ := hsecond around (first around w).world id (by rw [h₁.correlation, hcurrent]) hid
    exact
      { correlation := h₂.correlation.trans h₁.correlation
        entered := Nat.le_trans h₁.entered h₂.entered
        carried := List.forall_mem_append.2 ⟨h₁.carried, h₂.carried⟩ }

theorem Body.Settled.attempted (h : body.Settled) : body.attempted.Settled :=
  fun around w id hcurrent hid => { h around w id hcurrent hid with }

theorem Body.Settled.reporting (h : body.Settled) (tag : String) :
    (body.reporting tag).Settled := by
  intro around w id hcurrent hid
  have hbody := h around w id hcurrent hid
  unfold Body.reporting
  rcases hraised : (body around w).raised with _ | ⟨text, _ | _⟩
  · simpa only [hraised] using hbody
  · simpa only [hraised] using hbody
  · simp only [hraised]
    let report := (Record.plain .error callLogger (tag ++ ": " ++ text)).withCorrelation
      w.correlation.current
    have hreport : ((body around w).world.entry around report).Carries around id :=
      carries_entry (by rw [hbody.correlation, hcurrent]) hid (.inr (congrArg some hcurrent))
    exact
      { correlation := hbody.correlation
        entered := hbody.entered
        carried := List.forall_mem_append.2
          ⟨hbody.carried, List.forall_mem_singleton.2 hreport⟩ }

theorem Body.settled_answering (name : String) (c : Container) (elapsed : Double)
    (request : Call) : (Body.answering name c elapsed request).Settled := by
  intro around w id hcurrent hid
  refine .of_entries rfl (Nat.le_refl _) hcurrent hid fun e he => ?_
  obtain ⟨record, hrecord, rfl⟩ := List.mem_map.1 he
  refine ⟨record, ?_, rfl⟩
  rw [hcurrent] at hrecord
  exact stampedBy_run name id c elapsed request record hrecord

/-- Entering a block where an id is bound. -/
theorem correlation_enter_of_some (given : Option String)
    (hcurrent : w.correlation.current = some id) :
    (w.enter supply given).correlation =
      { w.correlation with current := some ((Block.id? ⟨w.entered, given⟩).getD id) } := by
  simp only [World.enter, Correlation.enter, Correlation.scopeId, Correlation.needsNew, hcurrent,
    Block.id?]
  cases given.filter (!·.isEmpty) <;> rfl

/-- Entering a block where no id is bound. -/
theorem correlation_enter_of_none (given : Option String)
    (hcurrent : w.correlation.current = none) :
    (w.enter supply given).correlation =
      { current := some ((Block.id? ⟨w.entered, given⟩).getD (supply w.correlation.made))
        made := if (Block.id? ⟨w.entered, given⟩).isNone then w.correlation.made + 1
          else w.correlation.made } := by
  simp only [World.enter, Correlation.enter, Correlation.scopeId, Correlation.needsNew, hcurrent,
    Option.or_none, Block.id?]
  rfl

theorem Block.ne_empty_of_id? {b : Block} (h : b.id? = some id) : id ≠ "" := by
  have hne := (Option.filter_eq_some_iff.1 h).2
  rintro rfl
  cases hne

theorem Body.Settled.inBlock (h : body.Settled) (given : Option String) :
    (body.inBlock supply given).Settled := by
  intro around w id hcurrent hid
  let b : Block := ⟨w.entered, given⟩
  have henter : (w.enter supply given).correlation =
      { w.correlation with current := some (b.id?.getD id) } :=
    correlation_enter_of_some given hcurrent
  have hne : b.id?.getD id ≠ "" := by
    cases hb : b.id? with
    | none => exact hid
    | some given => exact Block.ne_empty_of_id? hb
  have hbody := h (b :: around) (w.enter supply given) (b.id?.getD id) (by rw [henter]) hne
  exact
    { correlation := by
        show w.correlation.leave (body (b :: around) (w.enter supply given)).world.correlation = _
        rw [hbody.correlation, henter]
        rfl
      entered := Nat.le_trans (Nat.le_succ _) hbody.entered
      carried := fun e he => by
        obtain ⟨inner, haround, hcarried⟩ := hbody.carried e he
        refine ⟨inner ++ [b], by rw [haround, List.append_assoc]; rfl, ?_⟩
        rw [hcarried, givenId?_append, givenId?_singleton, Option.getD_or] }

end Settled

/-- Where an id is bound, no program makes one. -/
theorem settled_run (supply : Nat → String) (p : Program) : (p.run supply).Settled := by
  induction p with
  | skip =>
    exact fun around w id hcurrent hid => .of_entries rfl (Nat.le_refl _) hcurrent hid
      (List.forall_mem_nil _)
  | note level logger message =>
    exact fun around w id hcurrent hid => .of_entries rfl (Nat.le_refl _) hcurrent hid
      (List.forall_mem_singleton.2 ⟨_, .inl rfl, rfl⟩)
  | log level logger message context =>
    intro around w id hcurrent hid
    simp only [Program.run]
    cases hrecord : recordWithContext? level logger message context w.correlation.current with
    | none => exact .of_entries rfl (Nat.le_refl _) hcurrent hid (List.forall_mem_nil _)
    | some record =>
      have hstamp := correlation_of_recordWithContext? hrecord
      rw [hcurrent] at hstamp
      exact .of_entries rfl (Nat.le_refl _) hcurrent hid
        (List.forall_mem_singleton.2 ⟨record, .inr hstamp, rfl⟩)
  | fail e =>
    exact fun around w id hcurrent hid => .of_entries rfl (Nat.le_refl _) hcurrent hid
      (List.forall_mem_nil _)
  | seq first second ihfirst ihsecond => exact ihfirst.andThen ihsecond
  | attempt body ih => exact ih.attempted
  | scope given body ih => exact ih.inBlock given
  | action tag body ih => exact (ih.reporting tag).inBlock none
  | call name elapsed request =>
    intro around w id hcurrent hid
    cases hc : w.containers.lookup name with
    | none =>
      simp only [Program.run, hc]
      exact .of_entries rfl (Nat.le_refl _) hcurrent hid (List.forall_mem_nil _)
    | some c =>
      rw [run_call hc]
      exact (Body.settled_answering name c elapsed request).inBlock none around w id hcurrent hid

/-! ## Where no id is bound -/

/-- What a body leaves behind where no id is bound and no block is entered yet: a record outside
blocks carries no id; a record in blocks that are given an id carries that of the innermost; and
the records of an outermost block that are in none share an id made for that block. -/
structure Apart (supply : Nat → String) (w : World) (done : Run) : Prop where
  current : done.world.correlation.current = none
  made : w.correlation.made ≤ done.world.correlation.made
  entered : w.entered ≤ done.world.entered
  bare : ∀ e ∈ done.entries, e.around = [] → e.id? = none
  given : ∀ e ∈ done.entries, ∀ id, givenId? e.around = some id → e.id? = some id
  number : ∀ e ∈ done.entries, ∀ b, e.UngivenIn b →
    w.entered ≤ b.number ∧ b.number < done.world.entered
  generated : ∀ e ∈ done.entries, ∀ b, e.UngivenIn b →
    ∃ n, w.correlation.made ≤ n ∧ n < done.world.correlation.made ∧ e.id? = some (supply n)
  shared : ∀ e₁ ∈ done.entries, ∀ e₂ ∈ done.entries, ∀ b₁ b₂, e₁.UngivenIn b₁ → e₂.UngivenIn b₂ →
    (e₁.id? = e₂.id? ↔ b₁ = b₂)

section Apart

variable {w : World} {done : Run}

theorem Entry.UngivenIn.unique {e : Entry} {b₁ b₂ : Block} (h₁ : e.UngivenIn b₁)
    (h₂ : e.UngivenIn b₂) : b₁ = b₂ :=
  Option.some.inj (h₁.outermost.symm.trans h₂.outermost)

theorem Entry.not_ungivenIn {e : Entry} (haround : e.around = []) (b : Block) :
    ¬ e.UngivenIn b := by
  intro h
  have hlast := h.outermost
  rw [haround] at hlast
  cases hlast

/-- Records outside blocks. -/
theorem Apart.of_bare {entries : List Entry} {raised : Option Raised}
    (hcurrent : w.correlation.current = none)
    (h : ∀ e ∈ entries, ∃ record : Record, (record.correlation = none ∨
      record.correlation = some w.correlation.current) ∧ e = w.entry [] record) :
    Apart supply w { world := w, entries, raised } := by
  have hbare : ∀ e ∈ entries, e.around = [] ∧ e.id? = none := by
    intro e he
    obtain ⟨record, hrecord, rfl⟩ := h e he
    refine ⟨rfl, ?_⟩
    rw [id?_entry hrecord, hcurrent]
    rfl
  have hungiven : ∀ e ∈ entries, ∀ b, ¬ e.UngivenIn b := fun e he =>
    Entry.not_ungivenIn (hbare e he).1
  exact
    { current := hcurrent
      made := Nat.le_refl _
      entered := Nat.le_refl _
      bare := fun e he _ => (hbare e he).2
      given := fun e he id hid => by
        rw [(hbare e he).1] at hid
        cases hid
      number := fun e he b hb => absurd hb (hungiven e he b)
      generated := fun e he b hb => absurd hb (hungiven e he b)
      shared := fun e₁ he₁ _ _ b₁ _ hb₁ _ => absurd hb₁ (hungiven e₁ he₁ b₁) }

/-- What is left behind in front of and by a body that runs on is left behind by both. -/
theorem Apart.append (hinj : Function.Injective supply) {rest : Run} (h₁ : Apart supply w done)
    (h₂ : Apart supply done.world rest) :
    Apart supply w { rest with entries := done.entries ++ rest.entries } where
  current := h₂.current
  made := Nat.le_trans h₁.made h₂.made
  entered := Nat.le_trans h₁.entered h₂.entered
  bare := List.forall_mem_append.2 ⟨h₁.bare, h₂.bare⟩
  given := List.forall_mem_append.2 ⟨h₁.given, h₂.given⟩
  number := by
    refine List.forall_mem_append.2 ⟨fun e he b hb => ?_, fun e he b hb => ?_⟩
    · obtain ⟨hlow, hhigh⟩ := h₁.number e he b hb
      exact ⟨hlow, Nat.lt_of_lt_of_le hhigh h₂.entered⟩
    · obtain ⟨hlow, hhigh⟩ := h₂.number e he b hb
      exact ⟨Nat.le_trans h₁.entered hlow, hhigh⟩
  generated := by
    refine List.forall_mem_append.2 ⟨fun e he b hb => ?_, fun e he b hb => ?_⟩
    · obtain ⟨n, hlow, hhigh, hid⟩ := h₁.generated e he b hb
      exact ⟨n, hlow, Nat.lt_of_lt_of_le hhigh h₂.made, hid⟩
    · obtain ⟨n, hlow, hhigh, hid⟩ := h₂.generated e he b hb
      exact ⟨n, Nat.le_trans h₁.made hlow, hhigh, hid⟩
  shared := by
    -- a record of the one and a record of the other differ in both respects
    have hacross : ∀ e₁ ∈ done.entries, ∀ e₂ ∈ rest.entries, ∀ b₁ b₂, e₁.UngivenIn b₁ →
        e₂.UngivenIn b₂ → e₁.id? ≠ e₂.id? ∧ b₁ ≠ b₂ := by
      intro e₁ he₁ e₂ he₂ b₁ b₂ hb₁ hb₂
      obtain ⟨m, -, hm, hid₁⟩ := h₁.generated e₁ he₁ b₁ hb₁
      obtain ⟨n, hn, -, hid₂⟩ := h₂.generated e₂ he₂ b₂ hb₂
      have hfirst := (h₁.number e₁ he₁ b₁ hb₁).2
      have hsecond := (h₂.number e₂ he₂ b₂ hb₂).1
      constructor
      · rw [hid₁, hid₂]
        intro heq
        have hmn := hinj (Option.some.inj heq)
        omega
      · rintro rfl
        omega
    refine List.forall_mem_append.2 ⟨fun e₁ he₁ => List.forall_mem_append.2 ⟨?_, ?_⟩,
      fun e₁ he₁ => List.forall_mem_append.2 ⟨?_, ?_⟩⟩
    · exact h₁.shared e₁ he₁
    · intro e₂ he₂ b₁ b₂ hb₁ hb₂
      obtain ⟨hid, hb⟩ := hacross e₁ he₁ e₂ he₂ b₁ b₂ hb₁ hb₂
      exact iff_of_false hid hb
    · intro e₂ he₂ b₁ b₂ hb₁ hb₂
      obtain ⟨hid, hb⟩ := hacross e₂ he₂ e₁ he₁ b₂ b₁ hb₂ hb₁
      exact iff_of_false hid.symm hb.symm
    · exact h₂.shared e₁ he₁

section Outermost

variable {b : Block} {made : String} {e : Entry}

/-- Inside an outermost block the id that it is given counts like those of the blocks in it. -/
theorem Inside.outermost (h : Inside [b] (b.id?.getD made) w done) (he : e ∈ done.entries) :
    e.around.getLast? = some b ∧ e.id? = some ((givenId? e.around).getD made) := by
  obtain ⟨inner, haround, hid⟩ := h.carried e he
  rw [haround, hid, givenId?_append, givenId?_singleton, Option.getD_or]
  exact ⟨List.getLast?_concat, rfl⟩

theorem Inside.of_ungivenIn (h : Inside [b] (b.id?.getD made) w done) (he : e ∈ done.entries)
    {b' : Block} (hb' : e.UngivenIn b') : b' = b ∧ b.id? = none ∧ e.id? = some made := by
  obtain ⟨inner, haround, -⟩ := h.carried e he
  obtain ⟨hlast, hid⟩ := h.outermost he
  have hungiven := hb'.ungiven
  rw [haround, givenId?_append, givenId?_singleton, Option.or_eq_none_iff] at hungiven
  refine ⟨Option.some.inj (hb'.outermost.symm.trans hlast), hungiven.2, ?_⟩
  rw [hid, hb'.ungiven]
  rfl

end Outermost

/-- An outermost block. -/
theorem Apart.inBlock (hne : ∀ n, supply n ≠ "") {body : Body} (h : body.Settled)
    (hcurrent : w.correlation.current = none) (given : Option String) :
    Apart supply w (body.inBlock supply given [] w) := by
  let b : Block := ⟨w.entered, given⟩
  let made := w.correlation.made
  have henter : (w.enter supply given).correlation =
      { current := some (b.id?.getD (supply made))
        made := if b.id?.isNone then made + 1 else made } :=
    correlation_enter_of_none given hcurrent
  have hid : b.id?.getD (supply made) ≠ "" := by
    cases hb : b.id? with
    | none => exact hne made
    | some id => exact Block.ne_empty_of_id? hb
  have hbody := h [b] (w.enter supply given) _ (congrArg Correlation.current henter) hid
  have hmade : (w.leave (body [b] (w.enter supply given)).world).correlation.made =
      if b.id?.isNone then made + 1 else made := by
    show (body [b] (w.enter supply given)).world.correlation.made = _
    rw [hbody.correlation, henter]
  have hblock : ∀ e ∈ (body [b] (w.enter supply given)).entries, ∀ b', e.UngivenIn b' →
      b' = b ∧ b.id? = none ∧ e.id? = some (supply made) := fun e he _ => hbody.of_ungivenIn he
  exact
    { current := hcurrent
      made := by
        show made ≤ _
        rw [show (body.inBlock supply given [] w).world.correlation.made = _ from hmade]
        split <;> omega
      entered := Nat.le_trans (Nat.le_succ _) hbody.entered
      bare := fun e he haround => by
        have hlast := (hbody.outermost he).1
        rw [haround] at hlast
        cases hlast
      given := fun e he id hgiven => by
        rw [(hbody.outermost he).2, hgiven]
        rfl
      number := fun e he b' hb' => by
        obtain ⟨rfl, -, -⟩ := hblock e he b' hb'
        exact ⟨Nat.le_refl _, hbody.entered⟩
      generated := fun e he b' hb' => by
        obtain ⟨-, hb, hid?⟩ := hblock e he b' hb'
        refine ⟨made, Nat.le_refl _, ?_, hid?⟩
        rw [show (body.inBlock supply given [] w).world.correlation.made = _ from hmade, hb]
        exact Nat.lt_succ_self made
      shared := fun e₁ he₁ e₂ he₂ b₁ b₂ hb₁ hb₂ => by
        obtain ⟨rfl, -, hid₁⟩ := hblock e₁ he₁ b₁ hb₁
        obtain ⟨rfl, -, hid₂⟩ := hblock e₂ he₂ b₂ hb₂
        exact iff_of_true (hid₁.trans hid₂.symm) rfl }

end Apart

/-- Where no id is bound, the records of a program that are given no id share one with the records
of the same outermost block, and only with them. -/
theorem apart_run (hinj : Function.Injective supply) (hne : ∀ n, supply n ≠ "") (p : Program)
    {w : World} (hcurrent : w.correlation.current = none) :
    Apart supply w (p.run supply [] w) := by
  induction p generalizing w with
  | skip | fail => exact .of_bare hcurrent (List.forall_mem_nil _)
  | note level logger message =>
    exact .of_bare hcurrent (List.forall_mem_singleton.2 ⟨_, .inl rfl, rfl⟩)
  | log level logger message context =>
    simp only [Program.run]
    cases hrecord : recordWithContext? level logger message context w.correlation.current with
    | none => exact .of_bare hcurrent (List.forall_mem_nil _)
    | some record =>
      have hstamp := correlation_of_recordWithContext? hrecord
      exact .of_bare hcurrent (List.forall_mem_singleton.2 ⟨record, .inr hstamp, rfl⟩)
  | seq first second ihfirst ihsecond =>
    have hfirst := ihfirst hcurrent
    simp only [Program.run, Body.andThen]
    cases hraised : (first.run supply [] w).raised with
    | some e => exact hfirst
    | none => exact hfirst.append hinj (ihsecond hfirst.current)
  | attempt body ih => exact { ih hcurrent with }
  | scope given body => exact .inBlock hne (settled_run supply body) hcurrent given
  | action tag body => exact .inBlock hne ((settled_run supply body).reporting tag) hcurrent none
  | call name elapsed request =>
    cases hc : w.containers.lookup name with
    | none =>
      simp only [Program.run, hc]
      exact .of_bare hcurrent (List.forall_mem_nil _)
    | some c =>
      rw [run_call hc]
      exact .inBlock hne (Body.settled_answering name c elapsed request) hcurrent none

/-- Blocks nest: after each the id is bound that was bound before, and a record carries the id that
is given to the innermost block around it, or else one that was made for the outermost. -/
theorem scopes_nest (supply : Nat → String) (hinj : Function.Injective supply)
    (hne : ∀ n, supply n ≠ "") (p : Program) :
    (∀ around w, (p.run supply around w).world.correlation.current = w.correlation.current) ∧
    ∀ w : World, w.correlation.current = none →
      let done := p.run supply [] w
      (∀ e ∈ done.entries, ∀ id, givenId? e.around = some id → e.id? = some id) ∧
      (∀ e ∈ done.entries, ∀ b, e.UngivenIn b →
        ∃ n, w.correlation.made ≤ n ∧ n < done.world.correlation.made ∧ e.id? = some (supply n)) ∧
      (∀ e₁ ∈ done.entries, ∀ e₂ ∈ done.entries, ∀ b₁ b₂, e₁.UngivenIn b₁ → e₂.UngivenIn b₂ →
        (e₁.id? = e₂.id? ↔ b₁ = b₂)) ∧
      ∀ e ∈ done.entries, e.around = [] → e.id? = none := by
  refine ⟨current_run supply p, fun w hcurrent => ?_⟩
  have h := apart_run hinj hne p hcurrent
  exact ⟨h.given, h.generated, h.shared, h.bare⟩

/-- Ids that grow by a letter. -/
def letters (n : Nat) : String := String.ofList (List.replicate (n + 1) 'a')

theorem letters_injective : Function.Injective letters := by
  intro m n h
  have hlength := congrArg List.length (String.ofList_injective h)
  simpa using hlength

theorem letters_ne_empty (n : Nat) : letters n ≠ "" := by
  intro h
  have hlength := congrArg (·.toList.length) h
  simp [letters] at hlength

/-- A block that is given an id and left by an exception, an action, and a block after them. -/
def twoBlocks : Program :=
  let note : Program := .note .info "app" "seen"
  .seq
    (.scope none
      (.seq (.attempt (.scope (some "x") (.seq note (.fail ⟨"stop", true⟩))))
        (.seq (.scope (some "") note) (.attempt (.action "Load" (.fail ⟨"gone", true⟩))))))
    (.seq (.scope none note) note)

theorem scopes_nest_twoBlocks :
    (twoBlocks.run letters [] {}).entries.map Entry.id? =
      [some "x", some "a", some "a", some "aa", none] ∧
    (twoBlocks.run letters [] {}).world.correlation.current = none ∧
    ∀ e ∈ (twoBlocks.run letters [] {}).entries, ∀ b, e.UngivenIn b →
      ∃ n, 0 ≤ n ∧ n < 2 ∧ e.id? = some (letters n) := by
  have h := scopes_nest letters letters_injective letters_ne_empty twoBlocks
  exact ⟨by decide +kernel, h.1 [] {}, (h.2 {} rfl).2.1⟩

end Pigeonhole.Session
