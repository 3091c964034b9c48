import Pigeonhole.Proofs.Account.Place
import Pigeonhole.Proofs.Json.Written

/-!
# Failed requests

What a container writes is written before its response is made.  A response is not sent if its
payload holds an integer that is too long to be written, nor if its charge is beyond all doubles
(`unsent?`).  All databases and containers of an account have the account's charge (`Charged`).  So a
failed request changes nothing, unless it wrote or removed a document and the response with that
document is not sent (`failed_run`).

Nothing that was created goes away again (`Extends`), so the creation of a name can be repeated at
any later time and changes nothing.
-/

namespace Pigeonhole

/-- Whether a charge can be shown: an integer beyond all finite doubles cannot. -/
def Number.fits : Number → Bool
  | .int n => (Double.ofInt n).isFinite
  | .double _ => true

/-- What is wrong with a charge that does not fit. -/
def unfitCharge : Failure := .invalid [⟨[.key "request_charge"], .notDouble⟩]

/-- A charge as responses show it, if it fits. -/
def Number.shown : Number → Double
  | .int n => Double.ofInt n
  | .double x => x

/-- What keeps a response from being sent. -/
def unsent? (charge : Number) (payload : Json) : Option Failure :=
  if payload.isWritable then if charge.fits then none else some unfitCharge
  else some (.noText .longInteger)

section Charge

variable {charge : Number} {payload : Json}

theorem unsent?_eq_none_iff :
    unsent? charge payload = none ↔ payload.isWritable = true ∧ charge.fits = true := by
  rw [unsent?]
  cases payload.isWritable <;> cases charge.fits <;> simp

theorem unsent?_of_isWritable (h : payload.isWritable = true) :
    unsent? charge payload = if charge.fits then none else some unfitCharge := if_pos h

theorem unsent?_of_not_isWritable (h : payload.isWritable = false) :
    unsent? charge payload = some (.noText .longInteger) := by
  rw [unsent?, h]
  rfl

theorem chargeOf_of_fits (h : charge.fits = true) : chargeOf charge = .ok charge.shown := by
  unfold Number.fits at h
  cases charge with
  | int n => simp only [chargeOf, Number.asDouble, h, if_true, Checked.under, Number.shown]
  | double x => rfl

theorem chargeOf_of_not_fits (h : charge.fits = false) :
    chargeOf charge = .issues [⟨[.key "request_charge"], .notDouble⟩] := by
  unfold Number.fits at h
  cases charge with
  | int n =>
    simp only [chargeOf, Number.asDouble, h, Bool.false_eq_true, if_false]
    rfl
  | double x => simp at h

/-- A response is sent exactly if its payload can be written and its charge fits. -/
theorem responded_chargeOf {α : Type} (charge : Number) (payload : Json) (response : Double → α) :
    Container.responded payload ((chargeOf charge).map response) =
      match unsent? charge payload with
      | none => .ok (response charge.shown)
      | some e => .error e := by
  rw [Container.responded]
  cases hp : payload.isWritable with
  | false =>
    rw [Json.written_of_not hp, unsent?_of_not_isWritable hp]
  | true =>
    rw [Json.written_of_isWritable hp, unsent?_of_isWritable hp]
    cases h : charge.fits with
    | true =>
      rw [chargeOf_of_fits h]
      rfl
    | false =>
      rw [chargeOf_of_not_fits h]
      rfl

/-- An answer that is made of a payload: it is sent only if the payload can be written and the charge
fits. -/
def sent {α : Type} (charge : Number) (payload : Json) (answer : α) : Except Failure α :=
  match unsent? charge payload with
  | none => .ok answer
  | some e => .error e

section

variable {α β : Type}

theorem sent_of_isWritable (h : payload.isWritable = true) (answer : α) :
    sent charge payload answer = if charge.fits then .ok answer else .error unfitCharge := by
  rw [sent, unsent?_of_isWritable h]
  cases charge.fits <;> rfl

theorem sent_of_not_isWritable (h : payload.isWritable = false) (answer : α) :
    sent charge payload answer = .error (.noText .longInteger) := by
  rw [sent, unsent?_of_not_isWritable h]

theorem map_sent (charge : Number) (payload : Json) (answer : α) (f : α → β) :
    (sent charge payload answer).map f = sent charge payload (f answer) := by
  unfold sent
  cases unsent? charge payload <;> rfl

end

end Charge

namespace Container

variable {c : Container} {elapsed : Double} {action : Action}

/-- The document that an action stores or removes and the documents afterwards, if it changes any. -/
def written? (c : Container) : Action → Option (Json × Store)
  | .upsert item => (c.store.upsert item).toOption.map fun r => (r.1.document, r.2)
  | .delete address => (c.store.delete address).toOption.map fun r => (r.1.document, r.2)
  | .read _ | .readAll _ | .query _ _ => none

theorem state_feed (c : Container) (elapsed : Double) (description : String)
    (found : Except Failure (List Json)) : (c.feed elapsed description found).state = c := by
  unfold feed
  cases found <;> rfl

theorem state_read (c : Container) (elapsed : Double) (address : Address) :
    (c.read elapsed address).state = c := by
  unfold read
  cases c.store.read address with
  | error e => rfl
  | ok found => cases address.id.display? <;> rfl

theorem run_of_not_written (h : c.written? action = none) : (c.run elapsed action).state = c := by
  cases action with
  | upsert item =>
    simp only [run, upsert, Outcome.map]
    cases hs : c.store.upsert item with
    | error e => rfl
    | ok stored => simp [written?, hs, Except.toOption] at h
  | read address => exact state_read _ _ _
  | delete address =>
    simp only [run, delete, Outcome.map]
    cases hs : c.store.delete address with
    | error e => rfl
    | ok removed => simp [written?, hs, Except.toOption] at h
  | readAll options =>
    simp only [run, readAll, Outcome.map]
    cases FeedOptions.ofValue options with
    | error e => rfl
    | ok options => exact state_feed _ _ _ _
  | query query options =>
    simp only [run, Container.query, Outcome.map]
    cases FeedOptions.ofValue options with
    | error e => rfl
    | ok options => exact state_feed _ _ _ _

theorem charge_withStore (c : Container) (store : Store) : (c.withStore store).charge = c.charge :=
  rfl

/-- The write comes first, and the response to it afterwards. -/
theorem run_of_written {document : Json} {store : Store}
    (h : c.written? action = some (document, store)) :
    (c.run elapsed action).state = c.withStore store ∧
      (c.run elapsed action).result =
        (responded document (ItemResponse.ofJson elapsed document c.charge)).map .item := by
  cases action with
  | upsert item =>
    simp only [run, upsert, Outcome.map]
    cases hs : c.store.upsert item with
    | error e => simp [written?, hs, Except.toOption] at h
    | ok stored =>
      obtain ⟨rfl, rfl⟩ : stored.1.document = document ∧ stored.2 = store := by
        simpa [written?, hs, Except.toOption] using h
      exact ⟨rfl, rfl⟩
  | delete address =>
    simp only [run, delete, Outcome.map]
    cases hs : c.store.delete address with
    | error e => simp [written?, hs, Except.toOption] at h
    | ok removed =>
      obtain ⟨rfl, rfl⟩ : removed.1.document = document ∧ removed.2 = store := by
        simpa [written?, hs, Except.toOption] using h
      exact ⟨rfl, rfl⟩
  | read _ | readAll _ | query _ _ => simp [written?] at h

theorem responded_of_sent {document : Json} (h : unsent? c.charge document = none) :
    ∃ r, responded document (ItemResponse.ofJson elapsed document c.charge) = .ok r :=
  ⟨_, by rw [ItemResponse.ofJson, responded_chargeOf, h]⟩

theorem responded_of_unsent {document : Json} {e : Failure}
    (h : unsent? c.charge document = some e) :
    responded document (ItemResponse.ofJson elapsed document c.charge) = .error e := by
  rw [ItemResponse.ofJson, responded_chargeOf, h]

end Container

namespace Account

variable {a b : Account} {op : Operation} {database container : String}

/-! ## One request -/

/-- The document that a request stores or removes and the account afterwards, if it changes any
documents. -/
def written? (a : Account) : Operation → Option (Json × Account)
  | .act database container _ action =>
    (a.container? database container).bind fun c =>
      (c.written? action).map fun w =>
        (w.1, a.setContainer database container (c.withStore w.2))
  | .createDatabase _ | .createContainer _ _ => none

theorem state_act (a : Account) (database container : String) (elapsed : Double)
    (action : Action) :
    (a.act database container elapsed action).state =
      ((a.written? (.act database container elapsed action)).map (·.2)).getD a := by
  simp only [written?]
  cases hd : a.database? database with
  | none =>
    have hplace : a.container? database container = none := by rw [container?, hd]; rfl
    rw [act_of_no_database hd, hplace]
    rfl
  | some d =>
    cases hc : d.container? container with
    | none =>
      rw [act_of_no_container hd hc, container?_of_database hd, hc]
      rfl
    | some c =>
      have hplace : a.container? database container = some c := by
        rw [container?_of_database hd, hc]
      rw [(act_of_some hplace elapsed action).2, hplace, Option.bind_some]
      cases hw : c.written? action with
      | none =>
        rw [Container.run_of_not_written hw, setContainer_self hplace]
        rfl
      | some w =>
        rw [(Container.run_of_written hw).1]
        rfl

/-- All that a request can do: nothing, add a database or a container, or change documents. -/
theorem state_run_cases (a : Account) (op : Operation) :
    (a.run op).state = a ∨
      (∃ id, (a.run op).state = a.setDatabase id { id, charge := a.charge } ∧
        a.database? id = none) ∨
      (∃ database d request, a.database? database = some d ∧
        (a.run op).state =
          a.setContainer database request.id (Container.create request d.charge)) ∨
      ∃ database container c action document store, a.container? database container = some c ∧
        c.written? action = some (document, store) ∧
        (a.run op).state = a.setContainer database container (c.withStore store) := by
  cases op with
  | createDatabase details =>
    cases hrequest : DatabaseRequest.ofValue details with
    | error e => rw [run_createDatabase_of_error hrequest]; exact .inl rfl
    | ok request =>
      rw [(run_createDatabase_of_ok hrequest).2, databaseFor]
      cases hd : a.database? request.id with
      | none => exact .inr (.inl ⟨_, rfl, hd⟩)
      | some d => exact .inl (setDatabase_self hd)
  | createContainer database details =>
    simp only [run]
    cases hd : a.database? database with
    | none => rw [createContainer_of_none hd]; exact .inl rfl
    | some d =>
      cases hrequest : ContainerRequest.ofValue details with
      | error e => rw [createContainer_of_error hd hrequest]; exact .inl rfl
      | ok request =>
        rw [(createContainer_of_ok hd hrequest).2, Database.containerFor]
        cases hc : d.container? request.id with
        | none => exact .inr (.inr (.inl ⟨_, _, _, hd, rfl⟩))
        | some c =>
          refine .inl (setContainer_self ?_)
          rw [container?_of_database hd, hc, Option.getD_some]
  | act database container elapsed action =>
    simp only [run, state_act]
    cases hw : a.written? (.act database container elapsed action) with
    | none => exact .inl rfl
    | some b =>
      obtain ⟨c, hc, hstore⟩ := Option.bind_eq_some_iff.1 hw
      obtain ⟨⟨document, store⟩, hwritten, rfl⟩ := Option.map_eq_some_iff.1 hstore
      exact .inr (.inr (.inr ⟨_, _, _, _, _, _, hc, hwritten, rfl⟩))

/-- A failed request leaves behind what it wrote before it failed, and nothing else. -/
theorem state_of_failed {e : Failure} (h : (a.run op).result = .error e) :
    (a.run op).state = ((a.written? op).map (·.2)).getD a := by
  cases op with
  | createDatabase details =>
    cases hrequest : DatabaseRequest.ofValue details with
    | error e' => rw [run_createDatabase_of_error hrequest]; rfl
    | ok request => rw [(run_createDatabase_of_ok hrequest).1] at h; contradiction
  | createContainer database details =>
    simp only [run] at h ⊢
    cases hd : a.database? database with
    | none => rw [createContainer_of_none hd] at h; contradiction
    | some d =>
      cases hrequest : ContainerRequest.ofValue details with
      | error e' => rw [createContainer_of_error hd hrequest]; rfl
      | ok request => rw [(createContainer_of_ok hd hrequest).1] at h; contradiction
  | act database container elapsed action => exact state_act _ _ _ _ _

/-! ## Charges -/

/-- Every database and every container has the charge of the account. -/
structure Charged (a : Account) : Prop where
  database : ∀ {name d}, a.database? name = some d → d.charge = a.charge
  container : ∀ {database container c}, a.container? database container = some c →
    c.charge = a.charge

theorem Charged.setDatabase (h : a.Charged) {d : Database} (hd : d.charge = a.charge)
    (hc : ∀ {container c}, d.container? container = some c → c.charge = a.charge) (name : String) :
    (a.setDatabase name d).Charged where
  database {other found} hfound := by
    by_cases hname : other = name
    · subst hname
      rw [database?_setDatabase_self, Option.some.injEq] at hfound
      exact hfound ▸ hd
    · rw [database?_setDatabase_of_ne hname] at hfound
      exact h.database hfound
  container {other container c} hfound := by
    rcases container?_setDatabase_cases hfound with ⟨-, hfound⟩ | hfound
    · exact hc hfound
    · exact h.container hfound

theorem Charged.setContainer (h : a.Charged) {c : Container} (hc : c.charge = a.charge)
    (database container : String) : (a.setContainer database container c).Charged := by
  cases hd : a.database? database with
  | none => simpa only [Account.setContainer, hd] using h
  | some d =>
    rw [setContainer_of_some hd]
    have hcharge := (d.charge_setContainer container c).trans (h.database hd)
    refine h.setDatabase hcharge (fun {other found} hfound => ?_) database
    rcases Database.container?_setContainer_cases hfound with rfl | hfound
    · exact hc
    · have hplace : a.container? database other = some found := by
        rw [container?_of_database hd, hfound]
      exact h.container hplace

theorem charge_setContainer (a : Account) (database container : String) (c : Container) :
    (a.setContainer database container c).charge = a.charge := by
  unfold setContainer
  cases a.database? database <;> rfl

theorem charge_run (a : Account) (op : Operation) : (a.run op).state.charge = a.charge := by
  obtain h | ⟨id, h, -⟩ | ⟨database, d, request, -, h⟩ | ⟨_, _, _, _, _, _, -, -, h⟩ :=
    a.state_run_cases op
  · rw [h]
  · rw [h]; rfl
  · rw [h, charge_setContainer]
  · rw [h, charge_setContainer]

theorem Charged.run (h : a.Charged) (op : Operation) : (a.run op).state.Charged := by
  obtain hs | ⟨id, hs, -⟩ | ⟨database, d, request, hd, hs⟩ | ⟨_, _, c, _, _, store, hc, -, hs⟩ :=
    a.state_run_cases op
  · rwa [hs]
  · rw [hs]
    exact h.setDatabase rfl (fun {container c} hfound => by contradiction) id
  · rw [hs]
    exact h.setContainer (h.database hd) _ _
  · rw [hs]
    exact h.setContainer ((c.charge_withStore store).trans (h.container hc)) _ _

theorem charged_new (charge : Number) : Charged { charge } where
  database h := nomatch h
  container h := nomatch h

theorem charged_runAll (h : a.Charged) (ops : List Operation) :
    (a.runAll ops).1.Charged ∧ (a.runAll ops).1.charge = a.charge := by
  induction ops generalizing a with
  | nil => exact ⟨h, rfl⟩
  | cons op rest ih =>
    obtain ⟨hcharged, hcharge⟩ := ih (h.run op)
    exact ⟨hcharged, hcharge.trans (a.charge_run op)⟩

theorem run_of_written (h : a.Charged) {document : Json}
    (hw : a.written? op = some (document, b)) :
    (a.run op).state = b ∧
      ((unsent? a.charge document = none → ∃ r, (a.run op).result = .ok (.response r)) ∧
        ∀ e, unsent? a.charge document = some e → (a.run op).result = .error e) := by
  cases op with
  | createDatabase details => simp [written?] at hw
  | createContainer database details => simp [written?] at hw
  | act database container elapsed action =>
    have hstate := a.state_act database container elapsed action
    rw [hw, Option.map_some, Option.getD_some] at hstate
    obtain ⟨c, hc, hstore⟩ := Option.bind_eq_some_iff.1 hw
    obtain ⟨⟨stored, store⟩, hwritten, hpair⟩ := Option.map_eq_some_iff.1 hstore
    obtain ⟨rfl, -⟩ := Prod.mk.inj hpair
    have hcharge := h.container hc
    have hresult := (act_of_some hc elapsed action).1
    rw [(Container.run_of_written hwritten).2] at hresult
    refine ⟨hstate, fun hsent => ?_, fun e hunsent => ?_⟩
    · obtain ⟨r, hr⟩ : ∃ r, Container.responded stored
          (ItemResponse.ofJson elapsed stored c.charge) = .ok r :=
        Container.responded_of_sent (hcharge ▸ hsent)
      exact ⟨_, by rw [run, hresult, hr]; rfl⟩
    · rw [run, hresult, Container.responded_of_unsent (hcharge ▸ hunsent)]
      rfl

/-! ## Creations -/

/-- Every place of the first account is one of the second. -/
structure Extends (a b : Account) : Prop where
  database : ∀ {name}, (a.database? name).isSome → (b.database? name).isSome
  container : ∀ {database container}, (a.container? database container).isSome →
    (b.container? database container).isSome

theorem Extends.refl (a : Account) : a.Extends a := ⟨id, id⟩

theorem Extends.trans {c : Account} (h : a.Extends b) (h' : b.Extends c) : a.Extends c :=
  ⟨fun hs => h'.database (h.database hs), fun hs => h'.container (h.container hs)⟩

theorem extends_setDatabase {d : Database}
    (h : ∀ {container}, (a.container? database container).isSome →
      (d.container? container).isSome) :
    a.Extends (a.setDatabase database d) where
  database {name} hs := by
    by_cases hname : name = database
    · subst hname
      rw [database?_setDatabase_self]
      rfl
    · rwa [database?_setDatabase_of_ne hname]
  container {name container} hs := by
    by_cases hname : name = database
    · subst hname
      rw [container?_setDatabase_self]
      exact h hs
    · rwa [container?_setDatabase_of_ne hname]

theorem extends_setContainer (a : Account) (database container : String) (c : Container) :
    a.Extends (a.setContainer database container c) := by
  cases hd : a.database? database with
  | none => simpa only [setContainer, hd] using Extends.refl a
  | some d =>
    rw [setContainer_of_some hd]
    refine extends_setDatabase fun {other} hs => ?_
    by_cases hname : other = container
    · subst hname
      rw [Database.container?_setContainer_self]
      rfl
    · rw [Database.container?_setContainer_of_ne hname]
      rwa [container?_of_database hd] at hs

theorem extends_run (a : Account) (op : Operation) : a.Extends (a.run op).state := by
  obtain h | ⟨id, h, hnone⟩ | ⟨database, d, request, -, h⟩ | ⟨_, _, _, _, _, _, -, -, h⟩ :=
    a.state_run_cases op
  · rw [h]
    exact .refl a
  · rw [h]
    refine extends_setDatabase fun hs => ?_
    rw [container?, hnone] at hs
    contradiction
  · rw [h]
    exact extends_setContainer _ _ _ _
  · rw [h]
    exact extends_setContainer _ _ _ _

theorem extends_runAll (a : Account) (ops : List Operation) : a.Extends (a.runAll ops).1 := by
  induction ops generalizing a with
  | nil => exact .refl a
  | cons op rest ih => exact (a.extends_run op).trans (ih _)

end Account

/-- Whether an answer is the one to a creation. -/
def Reply.created : Reply → Bool
  | .database _ | .container _ => true
  | .response _ | .noDatabase | .noContainer => false

/-- Whether a request only reads documents. -/
def Operation.reads : Operation → Bool
  | .act _ _ _ (.read _) | .act _ _ _ (.readAll _) | .act _ _ _ (.query _ _) => true
  | _ => false

namespace Account

variable {a b : Account} {op : Operation}

theorem written_of_reads (a : Account) (h : op.reads = true) : a.written? op = none := by
  cases op with
  | createDatabase _ | createContainer _ _ => simp [Operation.reads] at h
  | act database container elapsed action =>
    simp only [written?]
    cases a.container? database container with
    | none => rfl
    | some c =>
      cases action with
      | upsert _ | delete _ => simp [Operation.reads] at h
      | read _ | readAll _ | query _ _ => rfl

theorem state_of_reads (a : Account) (h : op.reads = true) : (a.run op).state = a := by
  cases op with
  | createDatabase _ | createContainer _ _ => simp [Operation.reads] at h
  | act database container elapsed action =>
    simp only [run, state_act, written_of_reads a h, Option.map_none, Option.getD_none]

/-- What was created is there in every account that came after, and creating it again changes
nothing. -/
theorem run_of_created {reply : Reply} (hreply : (a.run op).result = .ok reply)
    (hcreated : reply.created = true) (h : (a.run op).state.Extends b) :
    (b.run op).state = b ∧ ∃ again, (b.run op).result = .ok again ∧ again.created = true := by
  cases op with
  | createDatabase details =>
    cases hrequest : DatabaseRequest.ofValue details with
    | error e => rw [run_createDatabase_of_error hrequest] at hreply; contradiction
    | ok request =>
      have hsome : (b.database? request.id).isSome := by
        apply h.database
        rw [(run_createDatabase_of_ok hrequest).2, database?_setDatabase_self]
        rfl
      obtain ⟨d, hd⟩ := Option.isSome_iff_exists.1 hsome
      obtain ⟨hresult, hstate⟩ := run_createDatabase_of_ok (a := b) hrequest
      refine ⟨?_, _, hresult, rfl⟩
      rw [hstate, databaseFor, hd, Option.getD_some, setDatabase_self hd]
  | createContainer database details =>
    simp only [run] at hreply h ⊢
    cases hd : a.database? database with
    | none =>
      rw [createContainer_of_none hd, Except.ok.injEq] at hreply
      subst hreply
      contradiction
    | some d =>
      cases hrequest : ContainerRequest.ofValue details with
      | error e => rw [createContainer_of_error hd hrequest] at hreply; contradiction
      | ok request =>
        have hsome : (b.container? database request.id).isSome := by
          apply h.container
          rw [(createContainer_of_ok hd hrequest).2, setContainer_of_some hd,
            container?_setDatabase_self, Database.container?_setContainer_self]
          rfl
        obtain ⟨c, hc⟩ := Option.isSome_iff_exists.1 hsome
        obtain ⟨e, he, hec⟩ := container?_eq_some hc
        obtain ⟨hresult, hstate⟩ := createContainer_of_ok he hrequest
        refine ⟨?_, _, hresult, rfl⟩
        rw [hstate, Database.containerFor, hec, Option.getD_some, setContainer_self hc]
  | act database container elapsed action =>
    simp only [run] at hreply
    cases hd : a.database? database with
    | none =>
      rw [act_of_no_database hd, Except.ok.injEq] at hreply
      subst hreply
      contradiction
    | some d =>
      cases hc : d.container? container with
      | none =>
        rw [act_of_no_container hd hc, Except.ok.injEq] at hreply
        subst hreply
        contradiction
      | some c =>
        rw [(act_of_some (by rw [container?_of_database hd, hc]) elapsed action).1] at hreply
        cases hr : (c.run elapsed action).result with
        | error e => rw [hr] at hreply; contradiction
        | ok r =>
          rw [hr] at hreply
          obtain rfl := Except.ok.inj hreply
          contradiction

/-- A request that changes no documents and fails leaves the account as it was.  A request that
stores or removes a document does so whatever becomes of its response, and fails exactly if the
response is not sent: if there is an integer in the document that is too long to be written, or if
the charge does not fit.  So a failed request with neither changes nothing.  Reading leaves the
account as it was in any case, and so does the creation of what was created before. -/
theorem failed_run (charge : Number) (ops : List Operation) (op : Operation) :
    let a := (runAll { charge } ops).1
    let o := a.run op
    (∀ e, o.result = .error e →
        (∀ document b, a.written? op = some (document, b) → unsent? charge document = none) →
        o.state = a) ∧
      (∀ document b, a.written? op = some (document, b) → o.state = b ∧
        (unsent? charge document = none → ∃ r, o.result = .ok (.response r)) ∧
        ∀ e, unsent? charge document = some e → o.result = .error e) ∧
      (op.reads → o.state = a) ∧
      ∀ reply, o.result = .ok reply → reply.created → ∀ more,
        let b := (o.state.runAll more).1
        (b.run op).state = b ∧ ∃ again, (b.run op).result = .ok again ∧ again.created := by
  intro a o
  obtain ⟨hcharged, hcharge⟩ : a.Charged ∧ a.charge = charge := charged_runAll (charged_new charge) ops
  have hwritten : ∀ document b, a.written? op = some (document, b) → o.state = b ∧
      (unsent? charge document = none → ∃ r, o.result = .ok (.response r)) ∧
      ∀ e, unsent? charge document = some e → o.result = .error e := by
    intro document b hw
    rw [← hcharge]
    exact run_of_written hcharged hw
  refine ⟨fun e he hsent => ?_, hwritten, a.state_of_reads, ?_⟩
  · have hstate : o.state = ((a.written? op).map (·.2)).getD a := state_of_failed he
    cases hw : a.written? op with
    | none => rw [hstate, hw, Option.map_none, Option.getD_none]
    | some w =>
      -- what was written was answered, so this request did not fail
      obtain ⟨r, hr⟩ := (hwritten _ _ hw).2.1 (hsent _ _ hw)
      rw [hr] at he
      contradiction
  · intro reply hreply hcreated more
    exact run_of_created hreply hcreated (extends_runAll _ more)

/-- A document stays although its upsert fails, since it holds an integer that is too long to be
written. -/
theorem unwritable_upsert_stays :
    let a := (runAll {}
      [.createDatabase (.obj [("id", .str "db")]),
        .createContainer "db"
          (.obj [("id", .str "c"), ("partitionKey", .obj [("paths", .arr [.str "/pk"])])])]).1
    let document : Json :=
      .obj [("id", .str "1"), ("pk", .str "a"), ("n", Tree.int (tenPow Numeral.maxDigits))]
    let op := .act "db" "c" Double.one (.upsert (Tree.ofJson document))
    let o := a.run op
    o.result = .error (.noText .longInteger) ∧ o.state ≠ a ∧
      (a.container? "db" "c").map (·.store.count) = some 0 ∧
      (o.state.container? "db" "c").map (·.store.count) = some 1 := by
  intro a document op o
  obtain ⟨hcharged, -⟩ : a.Charged ∧ a.charge = .double Double.one :=
    charged_runAll (charged_new _) _
  have hbefore : (a.container? "db" "c").map (·.store.count) = some 0 := by decide
  have hafter : (o.state.container? "db" "c").map (·.store.count) = some 1 := by decide
  obtain ⟨b, hb⟩ : ∃ b, a.written? op = some (document, b) := ⟨_, rfl⟩
  have hlong : document.isWritable = false := by
    rw [Tree.isWritable_obj, List.all_cons, List.all_cons, List.all_cons, Json.isWritable_tenPow]
    rfl
  have hfailed : o.result = .error (.noText .longInteger) :=
    (run_of_written hcharged hb).2.2 _ (unsent?_of_not_isWritable hlong)
  refine ⟨hfailed, fun h => ?_, hbefore, hafter⟩
  rw [h, hbefore] at hafter
  exact absurd hafter (by decide)

end Account

end Pigeonhole
