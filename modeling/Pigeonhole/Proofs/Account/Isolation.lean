import Mathlib.Logic.Function.Basic
import Pigeonhole.Proofs.Account.Place

/-!
# Containers apart

What an account shows at a place (`Account.view`) is its charge, the database there and the one
container.  A request that concerns the place is answered from the view alone (`run_congr`), and any
other request leaves the view as it is (`view_run_of_not_concerns`).  So the requests at a container
are answered as if there were no others (`transcript_filter`), and clients of one account as if
there were no other accounts (`containers_apart`).
-/

namespace Pigeonhole

/-- Whether a request concerns a place: an action there, or the creation of the database or of the
container.  A creation that names nothing, since it is malformed, counts too. -/
def Operation.concerns (database container : String) : Operation → Bool
  | .createDatabase details =>
    match DatabaseRequest.ofValue details with
    | .ok request => request.id = database
    | .error _ => true
  | .createContainer d details =>
    d = database &&
      match ContainerRequest.ofValue details with
      | .ok request => request.id = container
      | .error _ => true
  | .act d c _ _ => d = database && c = container

namespace Account

variable {a b : Account} {database container : String}

/-! ## One request -/

/-- What an account shows at a place. -/
def view (a : Account) (database container : String) :
    Number × Option (String × Number × Option Container) :=
  (a.charge, (a.database? database).map fun d => (d.id, d.charge, d.container? container))

theorem view_of_some {d : Database} (h : a.database? database = some d) :
    a.view database container = (a.charge, some (d.id, d.charge, d.container? container)) := by
  simp only [view, h, Option.map_some]

theorem container?_of_view (h : a.view database container = b.view database container) :
    a.container? database container = b.container? database container := by
  have hview : ∀ e : Account, e.container? database container =
      (e.view database container).2.bind fun entry => entry.2.2 := by
    intro e
    unfold view container?
    cases e.database? database <;> rfl
  rw [hview, hview, h]

/-- Accounts with one view both have no database there, or databases with the same container. -/
theorem cases_of_view (h : a.view database container = b.view database container) :
    a.charge = b.charge ∧
      (a.database? database = none ∧ b.database? database = none ∨
        ∃ d e, a.database? database = some d ∧ b.database? database = some e ∧ d.id = e.id ∧
          d.charge = e.charge ∧ d.container? container = e.container? container) := by
  obtain ⟨hcharge, hdatabase⟩ := Prod.mk.inj h
  refine ⟨hcharge, ?_⟩
  cases ha : a.database? database with
  | none =>
    rw [ha, Option.map_none] at hdatabase
    exact .inl ⟨rfl, Option.map_eq_none_iff.1 hdatabase.symm⟩
  | some d =>
    rw [ha, Option.map_some] at hdatabase
    obtain ⟨e, hb, he⟩ := Option.map_eq_some_iff.1 hdatabase.symm
    simp only [Prod.mk.injEq] at he
    exact .inr ⟨d, e, rfl, hb, he.1.symm, he.2.1.symm, he.2.2.symm⟩

theorem view_setDatabase_of_ne {other : String} (h : other ≠ database) (d : Database) :
    (a.setDatabase other d).view database container = a.view database container := by
  unfold view
  rw [database?_setDatabase_of_ne (Ne.symm h)]
  rfl

theorem view_setContainer {d : Database} (h : a.database? database = some d) (c : Container) :
    (a.setContainer database container c).view database container =
      (a.charge, some (d.id, d.charge, some c)) := by
  rw [setContainer_of_some h, view_of_some (database?_setDatabase_self _ _ _),
    Database.container?_setContainer_self]
  rfl

theorem view_setContainer_of_ne {d c : String} (h : ¬ (d = database ∧ c = container))
    (contents : Container) :
    (a.setContainer d c contents).view database container = a.view database container := by
  unfold setContainer
  cases hd : a.database? d with
  | none => rfl
  | some found =>
    by_cases hdatabase : d = database
    · subst hdatabase
      have hc : container ≠ c := fun hc => h ⟨rfl, hc.symm⟩
      rw [view_of_some (database?_setDatabase_self _ _ _), view_of_some hd,
        Database.container?_setContainer_of_ne hc]
      rfl
    · exact view_setDatabase_of_ne hdatabase _

/-- A request that does not concern a place leaves what is shown there. -/
theorem view_run_of_not_concerns {op : Operation} (h : op.concerns database container = false) :
    (a.run op).state.view database container = a.view database container := by
  cases op with
  | createDatabase details =>
    cases hrequest : DatabaseRequest.ofValue details with
    | error e => simp [Operation.concerns, hrequest] at h
    | ok request =>
      simp only [Operation.concerns, hrequest, decide_eq_false_iff_not] at h
      obtain ⟨-, hstate⟩ := run_createDatabase_of_ok (a := a) hrequest
      rw [hstate, view_setDatabase_of_ne h]
  | createContainer d details =>
    simp only [run]
    cases hd : a.database? d with
    | none => rw [createContainer_of_none hd]
    | some found =>
      cases hrequest : ContainerRequest.ofValue details with
      | error e => rw [createContainer_of_error hd hrequest]; rfl
      | ok request =>
        simp only [Operation.concerns, hrequest, ← Bool.decide_and, decide_eq_false_iff_not] at h
        obtain ⟨-, hstate⟩ := createContainer_of_ok hd hrequest
        rw [hstate, view_setContainer_of_ne h]
  | act d c elapsed action =>
    simp only [Operation.concerns, ← Bool.decide_and, decide_eq_false_iff_not] at h
    simp only [run]
    cases hd : a.database? d with
    | none => rw [act_of_no_database hd]
    | some found =>
      cases hc : found.container? c with
      | none => rw [act_of_no_container hd hc]
      | some contents =>
        have hplace : a.container? d c = some contents := by rw [container?_of_database hd, hc]
        obtain ⟨-, hstate⟩ := act_of_some hplace elapsed action
        rw [hstate, view_setContainer_of_ne h]

/-- A request that concerns a place is answered from what is shown there, and so is what it leaves
there. -/
theorem run_congr {op : Operation} (hop : op.concerns database container = true)
    (h : a.view database container = b.view database container) :
    (a.run op).result = (b.run op).result ∧
      (a.run op).state.view database container = (b.run op).state.view database container := by
  obtain ⟨hcharge, hdatabase⟩ := cases_of_view h
  cases op with
  | createDatabase details =>
    cases hrequest : DatabaseRequest.ofValue details with
    | error e =>
      rw [run_createDatabase_of_error hrequest, run_createDatabase_of_error hrequest]
      exact ⟨rfl, h⟩
    | ok request =>
      simp only [Operation.concerns, hrequest, decide_eq_true_eq] at hop
      subst hop
      obtain ⟨hresult, hstate⟩ := run_createDatabase_of_ok (a := a) hrequest
      obtain ⟨hresult', hstate'⟩ := run_createDatabase_of_ok (a := b) hrequest
      rw [hresult, hresult', hstate, hstate', view_of_some (database?_setDatabase_self _ _ _),
        view_of_some (database?_setDatabase_self _ _ _)]
      rcases hdatabase with ⟨hd, he⟩ | ⟨d, e, hd, he, hid, hdcharge, hc⟩
      · rw [databaseFor, databaseFor, hd, he, hcharge]
        simp only [setDatabase, hcharge, and_self]
      · rw [databaseFor, databaseFor, hd, he, Option.getD_some, Option.getD_some, hid, hdcharge, hc]
        simp only [setDatabase, hcharge, and_self]
  | createContainer d details =>
    simp only [Operation.concerns, Bool.and_eq_true, decide_eq_true_eq] at hop
    obtain ⟨rfl, hop⟩ := hop
    simp only [run]
    rcases hdatabase with ⟨hd, he⟩ | ⟨found, found', hd, he, hid, hdcharge, hc⟩
    · rw [createContainer_of_none hd, createContainer_of_none he]
      exact ⟨rfl, h⟩
    · cases hrequest : ContainerRequest.ofValue details with
      | error e =>
        rw [createContainer_of_error hd hrequest, createContainer_of_error he hrequest]
        exact ⟨rfl, h⟩
      | ok request =>
        obtain rfl : request.id = container := by
          simpa only [hrequest, decide_eq_true_eq] using hop
        obtain ⟨hresult, hstate⟩ := createContainer_of_ok hd hrequest
        obtain ⟨hresult', hstate'⟩ := createContainer_of_ok he hrequest
        have hsame : found.containerFor request = found'.containerFor request := by
          simp only [Database.containerFor, hc, hdcharge]
        rw [hresult, hresult', hstate, hstate', view_setContainer hd, view_setContainer he, hsame,
          hid, hdcharge, hcharge]
        exact ⟨rfl, rfl⟩
  | act d c elapsed action =>
    simp only [Operation.concerns, Bool.and_eq_true, decide_eq_true_eq] at hop
    obtain ⟨rfl, rfl⟩ := hop
    simp only [run]
    rcases hdatabase with ⟨hd, he⟩ | ⟨found, found', hd, he, hid, hdcharge, hc⟩
    · rw [act_of_no_database hd, act_of_no_database he]
      exact ⟨rfl, h⟩
    · cases hcontents : found.container? c with
      | none =>
        rw [act_of_no_container hd hcontents, act_of_no_container he (hc ▸ hcontents)]
        exact ⟨rfl, h⟩
      | some contents =>
        have hplace : a.container? d c = some contents := by
          rw [container?_of_database hd, hcontents]
        obtain ⟨hresult, hstate⟩ := act_of_some hplace elapsed action
        obtain ⟨hresult', hstate'⟩ := act_of_some (container?_of_view h ▸ hplace) elapsed action
        rw [hresult, hresult', hstate, hstate', view_setContainer hd, view_setContainer he, hid,
          hdcharge, hcharge]
        exact ⟨rfl, rfl⟩

/-! ## Runs of one account -/

section Runs

variable {κ : Type}

/-- The requests of a run, each with the client that sends it and with its answer. -/
def transcript (a : Account) (sent : List (κ × Operation)) :
    List ((κ × Operation) × Except Failure Reply) :=
  sent.zip (a.runAll (sent.map (·.2))).2

/-- The account after the requests of a run. -/
def after (a : Account) (sent : List (κ × Operation)) : Account := (a.runAll (sent.map (·.2))).1

theorem transcript_cons (a : Account) (s : κ × Operation) (sent : List (κ × Operation)) :
    a.transcript (s :: sent) = (s, (a.run s.2).result) :: (a.run s.2).state.transcript sent := rfl

theorem after_cons (a : Account) (s : κ × Operation) (sent : List (κ × Operation)) :
    a.after (s :: sent) = (a.run s.2).state.after sent := rfl

/-- Of two accounts that show the same at a place, one may get the requests that concern the place
only: they are answered alike, and the place shows the same afterwards. -/
theorem transcript_filter (h : a.view database container = b.view database container)
    (sent : List (κ × Operation)) :
    (a.transcript sent).filter (fun r => r.1.2.concerns database container) =
        b.transcript (sent.filter fun s => s.2.concerns database container) ∧
      (a.after sent).view database container =
        (b.after (sent.filter fun s => s.2.concerns database container)).view database
          container := by
  induction sent generalizing a b with
  | nil => exact ⟨rfl, h⟩
  | cons s sent ih =>
    cases hs : s.2.concerns database container with
    | true =>
      -- both accounts get the request
      obtain ⟨hresult, hview⟩ := run_congr hs h
      obtain ⟨htranscript, hafter⟩ := ih hview
      simp only [transcript_cons, after_cons, List.filter_cons, hs, if_true, hresult, htranscript,
        hafter, and_self]
    | false =>
      -- only the first account gets it, and the place shows the same as before
      obtain ⟨htranscript, hafter⟩ := ih ((view_run_of_not_concerns hs).trans h)
      simpa only [transcript_cons, after_cons, List.filter_cons, hs, Bool.false_eq_true, if_false]
        using ⟨htranscript, hafter⟩

end Runs

end Account

/-! ## Several accounts -/

section Accounts

variable {ι κ : Type} [DecidableEq ι]

/-- Answers the requests of several clients one after the other, each with the account of its
client. -/
def serve (home : κ → ι) (accounts : ι → Account) :
    List (κ × Operation) → List (Except Failure Reply) × (ι → Account)
  | [] => ([], accounts)
  | s :: sent =>
    let o := (accounts (home s.1)).run s.2
    let rest := serve home (Function.update accounts (home s.1) o.state) sent
    (o.result :: rest.1, rest.2)

/-- The requests of several clients, each with its answer. -/
def transcript (home : κ → ι) (accounts : ι → Account) (sent : List (κ × Operation)) :
    List ((κ × Operation) × Except Failure Reply) :=
  sent.zip (serve home accounts sent).1

/-- What the clients of one account are answered is what this account alone answers them, and what
they leave behind. -/
theorem transcript_home (home : κ → ι) (accounts : ι → Account) (sent : List (κ × Operation))
    (i : ι) :
    (transcript home accounts sent).filter (fun r => home r.1.1 = i) =
        (accounts i).transcript (sent.filter fun s => home s.1 = i) ∧
      (serve home accounts sent).2 i = (accounts i).after (sent.filter fun s => home s.1 = i) := by
  induction sent generalizing accounts with
  | nil => exact ⟨rfl, rfl⟩
  | cons s sent ih =>
    have hrest := ih (Function.update accounts (home s.1) ((accounts (home s.1)).run s.2).state)
    unfold transcript at hrest ⊢
    by_cases hs : home s.1 = i
    · subst hs
      rw [Function.update_self] at hrest
      simp only [serve, List.zip_cons_cons, List.filter_cons, decide_true, if_true,
        Account.transcript_cons, Account.after_cons, hrest, and_self]
    · rw [Function.update_of_ne (Ne.symm hs)] at hrest
      simpa only [serve, List.zip_cons_cons, List.filter_cons, hs, decide_false,
        Bool.false_eq_true, if_false] using hrest

/-- Without the actions on other containers and the creations of other databases and containers,
each request that is left has the answer that it has among them, and the container is the same
afterwards.  Clients of one account are answered as if there were no other accounts. -/
theorem containers_apart (home : κ → ι) (accounts : ι → Account) (sent : List (κ × Operation))
    (i : ι) (database container : String) :
    let own := sent.filter fun s => home s.1 = i
    let kept := own.filter fun s => s.2.concerns database container
    ((transcript home accounts sent).filter fun r => home r.1.1 = i) =
        (accounts i).transcript own ∧
      (serve home accounts sent).2 i = (accounts i).after own ∧
      ((transcript home accounts sent).filter fun r =>
          home r.1.1 = i ∧ r.1.2.concerns database container) = transcript home accounts kept ∧
      ((serve home accounts sent).2 i).container? database container =
        ((serve home accounts kept).2 i).container? database container := by
  intro own kept
  obtain ⟨hown, hafter⟩ := transcript_home home accounts sent i
  obtain ⟨hkept, hkeptAfter⟩ := transcript_home home accounts kept i
  obtain ⟨hfilter, hview⟩ := Account.transcript_filter
    (rfl : (accounts i).view database container = (accounts i).view database container) own
  -- the requests that are kept all belong to this account already
  have hall : kept.filter (fun s => home s.1 = i) = kept := by
    refine List.filter_eq_self.2 fun s hs => ?_
    exact (List.mem_filter.1 (List.mem_filter.1 hs).1).2
  have hall' : (transcript home accounts kept).filter (fun r => home r.1.1 = i) =
      transcript home accounts kept := by
    refine List.filter_eq_self.2 fun r hr => ?_
    have hmem : r.1 ∈ kept := (List.of_mem_zip hr).1
    exact (List.mem_filter.1 (List.mem_filter.1 hmem).1).2
  rw [hall'] at hkept
  rw [hall] at hkept hkeptAfter
  refine ⟨hown, hafter, ?_, ?_⟩
  · rw [hkept, ← hfilter, ← hown, List.filter_filter]
    simp only [Bool.decide_and, Bool.decide_eq_true, Bool.and_comm]
  · rw [hafter, hkeptAfter]
    exact Account.container?_of_view hview

end Accounts

end Pigeonhole
