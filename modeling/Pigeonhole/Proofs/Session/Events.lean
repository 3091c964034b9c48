import Pigeonhole.Session.Call
import Pigeonhole.Proofs.Account.Failure
import Pigeonhole.Proofs.Store.Invariant

/-!
# What happens to a container

An `Event` is anything that happens to a container: a request of a client or a call, which take their
time, or a request to its store.  Each asks one thing of the store, so a run of events is a run of
the store (`after_eq`).  Every container that is found in an account has come about in this way
(`exists_events_of_runAll`).
-/

namespace Pigeonhole

/-! ## Actions and calls -/

/-- What an action asks of the store, as far as it changes it. -/
def Action.effect : Action → Store.Call
  | .upsert item => .upsert item
  | .delete address => .delete address
  | .read _ | .readAll _ | .query _ _ => .count

theorem Container.state_run (c : Container) (elapsed : Double) (action : Action) :
    (c.run elapsed action).state = c.withStore (c.store.step action.effect).2 := by
  cases action with
  | upsert item =>
    simp only [run, upsert, Outcome.map, Action.effect, Store.step]
    cases c.store.upsert item <;> rfl
  | delete address =>
    simp only [run, delete, Outcome.map, Action.effect, Store.step]
    cases c.store.delete address <;> rfl
  | read _ | readAll _ | query _ _ => exact run_of_not_written rfl

namespace Session

/-- The action that carries out a call. -/
def Call.action : Call → Action
  | getItem item key => .read ⟨item, some key⟩
  | getItems key => .readAll (partitionOptions key)
  | getIds key => .query idsQuery (partitionOptions key)
  | getCount => .query countQuery .null
  | query text options => .query text options
  | upsertItem item => .upsert item
  | deleteItem item key => .delete ⟨item, some key⟩

section Finish

variable {α : Type} (id tag : String) (o : Outcome Container α) (answer : α → Json)
  (telemetry : α → Telemetry)

theorem state_finish : (finish id tag o answer telemetry).state = o.state := by
  unfold finish
  cases o.result <;> rfl

theorem result_finish : (finish id tag o answer telemetry).result = o.result.map answer := by
  unfold finish
  cases o.result <;> rfl

end Finish

theorem state_run (name id : String) (c : Container) (elapsed : Double) (call : Call) :
    (run name id c elapsed call).state = (c.run elapsed call.action).state := by
  cases call <;> exact state_finish _ _ _ _ _

/-! ## Events -/

/-- What happens to a container. -/
inductive Event where
  | act (elapsed : Double) (action : Action)
  /-- A call under a name of the container, with a correlation id. -/
  | call (name id : String) (elapsed : Double) (call : Call)
  | store (call : Store.Call)

/-- What an event asks of the store, as far as it changes it. -/
def Event.effect : Event → Store.Call
  | act _ action => action.effect
  | call _ _ _ request => request.action.effect
  | store request => request

/-- The container after an event. -/
def occur (c : Container) : Event → Container
  | .act elapsed action => (c.run elapsed action).state
  | .call name id elapsed call => (run name id c elapsed call).state
  | .store call => c.withStore (c.store.step call).2

/-- The container after a run of events. -/
def after (c : Container) (events : List Event) : Container := events.foldl occur c

theorem after_concat (c : Container) (events : List Event) (event : Event) :
    after c (events ++ [event]) = occur (after c events) event := by
  rw [after, List.foldl_append]
  rfl

theorem occur_eq (c : Container) (event : Event) :
    occur c event = c.withStore (c.store.step event.effect).2 := by
  cases event with
  | act elapsed action => exact c.state_run elapsed action
  | call name id elapsed call =>
    exact (state_run name id c elapsed call).trans (c.state_run elapsed call.action)
  | store call => rfl

theorem after_eq (c : Container) (events : List Event) :
    after c events = c.withStore (c.store.after (events.map Event.effect)) := by
  induction events generalizing c with
  | nil => rfl
  | cons event events ih =>
    have hrest := ih (occur c event)
    rw [occur_eq] at hrest
    rw [after, List.foldl_cons, occur_eq]
    exact hrest

theorem charge_after (c : Container) (events : List Event) : (after c events).charge = c.charge := by
  rw [after_eq, Container.charge_withStore]

theorem id_after (c : Container) (events : List Event) : (after c events).id = c.id := by
  rw [after_eq]
  rfl

theorem field_after (c : Container) (events : List Event) : (after c events).field = c.field := by
  rw [after_eq]
  exact Store.field_after _ _

theorem sound_store_after {c : Container} (h : c.store.Sound) (events : List Event) :
    (after c events).store.Sound := by
  rw [after_eq]
  exact h.after _

end Session

/-! ## Containers of an account -/

namespace Account

variable {a : Account} {database container : String} {c : Container}

/-- A container that is found after a request was there before, is new, or was there in the state
before an action. -/
theorem container?_run_cases {op : Operation}
    (h : (a.run op).state.container? database container = some c) :
    a.container? database container = some c ∨
      (∃ name d request, a.database? name = some d ∧ c = Container.create request d.charge) ∨
      ∃ name container before action, a.container? name container = some before ∧
        ∀ elapsed, c = (before.run elapsed action).state := by
  obtain hs | ⟨id, hs, -⟩ | ⟨name, d, request, hd, hs⟩ |
      ⟨name, other, before, action, document, store, hbefore, hwritten, hs⟩ :=
        a.state_run_cases op <;>
    rw [hs] at h
  · exact .inl h
  · rcases container?_setDatabase_cases h with ⟨-, hnone⟩ | h
    · cases hnone
    · exact .inl h
  · rcases container?_setContainer_cases h with rfl | h
    · exact .inr (.inl ⟨name, d, request, hd, rfl⟩)
    · exact .inl h
  · rcases container?_setContainer_cases h with rfl | h
    · exact .inr (.inr ⟨name, other, before, action, hbefore, fun elapsed =>
        (Container.run_of_written hwritten).1.symm⟩)
    · exact .inl h

/-- Every container has come about by a run of events since its creation. -/
structure Evolved (a : Account) : Prop where
  charged : a.Charged
  exists_events : ∀ {database container c}, a.container? database container = some c →
    ∃ request events, c = Session.after (Container.create request a.charge) events

theorem Evolved.run (h : a.Evolved) (op : Operation) : (a.run op).state.Evolved where
  charged := h.charged.run op
  exists_events {database container c} hc := by
    rw [charge_run]
    obtain hc | ⟨name, d, request, hd, rfl⟩ | ⟨name, other, before, action, hbefore, hstate⟩ :=
      container?_run_cases hc
    · exact h.exists_events hc
    · exact ⟨request, [], by rw [h.charged.database hd]; rfl⟩
    · obtain ⟨request, events, rfl⟩ := h.exists_events hbefore
      -- the state does not depend on how long the action took
      have hafter := Session.after_concat (Container.create request a.charge) events
        (.act (Double.zero false) action)
      exact ⟨request, _, (hstate _).trans hafter.symm⟩

theorem Evolved.runAll (h : a.Evolved) (ops : List Operation) : (a.runAll ops).1.Evolved := by
  induction ops generalizing a with
  | nil => exact h
  | cons op ops ih => exact ih (h.run op)

/-- Every container that is found after requests to a new account has come about by a run of events
since its creation. -/
theorem exists_events_of_runAll (charge : Number) (ops : List Operation)
    (h : (runAll { charge } ops).1.container? database container = some c) :
    ∃ request events, c = Session.after (Container.create request charge) events := by
  have hnew : Evolved { charge } := ⟨charged_new charge, fun h => nomatch h⟩
  obtain ⟨request, events, hc⟩ := (hnew.runAll ops).exists_events h
  rw [(charged_runAll (charged_new charge) ops).2] at hc
  exact ⟨request, events, hc⟩

end Account

end Pigeonhole
