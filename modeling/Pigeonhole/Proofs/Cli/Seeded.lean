import Pigeonhole.Cli.Query
import Pigeonhole.Proofs.Account.Failure
import Pigeonhole.Proofs.Json.Size
import Pigeonhole.Proofs.Query.Meeting
import Pigeonhole.Proofs.Schema.Fields
import Pigeonhole.Proofs.Store.Entries

/-!
# Answers of seeded runs

`runQuery` goes through an account, a container, its store, the options and the query language.
Up to the response a run is a list of rows: every document that is taken adds one (`Stored.upsert`),
the first that is not ends the run (`Stored.seed`), and the store then holds the last row of each
storage key at the place of the first (`documents_foldl_put`).  `result_runQuery` is the closed form
of the whole run.

The response to each document is checked like that to the query, so a document that is stored and
cannot be written ends the run as well, and so does the first under a charge that does not fit.
-/

namespace Pigeonhole

/-! ## Requests -/

namespace Query

theorem asModel_bindingValue (b : Binding) :
    Value.asModel checkBinding (bindingValue b) = .ok b := by
  have hvalue : checkJson (Tree.ofJson b.2) = .ok b.2 := by
    simp only [checkJson, Tree.toJson?_ofJson]
  have hmembers : Value.asModel checkBinding (bindingValue b) =
      checkBinding [("name", .str b.1), ("value", Tree.ofJson b.2)] := rfl
  rw [hmembers, checkBinding, Field.required_of_lookup rfl, Field.optional_of_lookup rfl, hvalue]
  rfl

/-- What is written is read. -/
theorem Spec.ofValue_toValue (spec : Spec) : Spec.ofValue spec.toValue = .ok spec := by
  have hparameters : Value.asList (Value.asModel checkBinding)
      (.arr (spec.parameters.map bindingValue)) = .ok spec.parameters :=
    Checked.items_map asModel_bindingValue 0 spec.parameters
  have hcheck : Spec.check [("query", .str spec.text),
      ("parameters", .arr (spec.parameters.map bindingValue))] = .ok spec := by
    rw [Spec.check, Field.required_of_lookup rfl, Field.optional_of_lookup rfl, hparameters]
    rfl
  unfold Spec.toValue Spec.ofValue readRequest
  simp only [Value.toMembers, hcheck]

end Query

theorem FeedOptions.ofValue_queryOptions (key : Option Json) :
    FeedOptions.ofValue (Cli.queryOptions (Value.given (key.map Tree.ofJson))) =
      .ok { partitionKey := key.map Tree.ofJson } := by
  rw [Store.given_map_ofJson]
  cases key with
  | none => rfl
  | some k => rfl

namespace Cli

/-- The request for the container of a run. -/
def containerRequest (path : String) : ContainerRequest where
  id := runContainer
  partitionKey := { paths := [path] }

end Cli

namespace Outcome

variable {σ α β : Type} {o : Outcome σ α}

theorem result_andThen_of_error {e : Failure} (h : o.result = .error e)
    (f : σ → α → Outcome σ β) : (o.andThen f).result = .error e := by
  simp only [andThen, h]

theorem andThen_of_ok {a : α} (h : o.result = .ok a) (f : σ → α → Outcome σ β) :
    (o.andThen f).result = (f o.state a).result ∧ (o.andThen f).state = (f o.state a).state := by
  simp only [andThen, h, and_self]

end Outcome

namespace Store

theorem field_foldl_put (s : Store) (rows : List Row) : (rows.foldl put s).field = s.field := by
  induction rows generalizing s with
  | nil => rfl
  | cons row rows ih => rw [List.foldl_cons, ih]; rfl

end Store

namespace Cli

/-! ## Seeding -/

/-- The container of a run in which rows were stored one after the other. -/
def filled (path : String) (charge : Number) (rows : List Row) : Container :=
  (Container.create (containerRequest path) charge).withStore
    (rows.foldl Store.put (Store.empty (partitionKeyField path)))

theorem field_filled (path : String) (charge : Number) (rows : List Row) :
    (filled path charge rows).store.field = partitionKeyField path :=
  Store.field_foldl_put _ _

theorem filled_concat (path : String) (charge : Number) (rows : List Row) (row : Row) :
    (filled path charge rows).withStore ((filled path charge rows).store.put row) =
      filled path charge (rows ++ [row]) := by
  unfold filled
  rw [List.foldl_append]
  rfl

/-- A run without a failure so far, in whose container rows were stored. -/
structure Stored (path : String) (charge : Number) (rows : List Row) (o : Outcome Account Reply) :
    Prop where
  answered : ∃ reply, o.result = .ok reply
  container : o.state.container? runDatabase runContainer = some (filled path charge rows)

variable {path : String} {charge : Number} {rows : List Row} {o : Outcome Account Reply}

theorem stored_prepare (path : String) (charge : Number) :
    Stored path charge [] (prepare path charge) where
  answered := ⟨_, rfl⟩
  container := rfl

/-- An action of a run is answered by its container. -/
theorem Stored.run_action (h : Stored path charge rows o) (elapsed : Double) (action : Action) :
    let next := o.andThen fun a _ => a.run (inContainer elapsed action)
    let r := (filled path charge rows).run elapsed action
    next.result = r.result.map .response ∧
      next.state.container? runDatabase runContainer = some r.state := by
  intro next r
  obtain ⟨reply, hreply⟩ := h.answered
  obtain ⟨hresult, hstate⟩ :=
    Outcome.andThen_of_ok hreply fun a _ => a.run (inContainer elapsed action)
  obtain ⟨hact, hafter⟩ := Account.act_of_some h.container elapsed action
  refine ⟨hresult.trans hact, ?_⟩
  obtain ⟨d, hd, -⟩ := Account.container?_eq_some h.container
  have hplace : next.state = o.state.setContainer runDatabase runContainer r.state :=
    hstate.trans hafter
  rw [hplace, Account.setContainer_of_some hd, Account.container?_setDatabase_self,
    Database.container?_setContainer_self]

/-- The row of a document of a run, if the document is taken and the response to it is sent. -/
def seededRow (field : String) (charge : Number) (document : Value) : Except Failure Row := do
  let row ← Row.ofValue field document
  sent charge row.document row

/-- A document that is taken is stored before the response to it is checked. -/
theorem Stored.upsert (h : Stored path charge rows o) (document : Value) :
    let next := o.andThen fun a _ => a.run (inContainer (Double.zero false) (.upsert document))
    match seededRow (partitionKeyField path) charge document with
    | .error e => next.result = .error e
    | .ok row => Stored path charge (rows ++ [row]) next := by
  intro next
  obtain ⟨hresult, hcontainer⟩ := h.run_action (Double.zero false) (.upsert document)
  rw [seededRow]
  cases hrow : Row.ofValue (partitionKeyField path) document with
  | error e =>
    rw [Container.run, Container.upsert, Store.upsert, field_filled, hrow] at hresult
    exact hresult
  | ok row =>
    have hupsert : (filled path charge rows).store.upsert document =
        .ok (row, (filled path charge rows).store.put row) := by
      rw [← field_filled path charge rows] at hrow
      exact Store.upsert_eq_ok_iff.2 ⟨hrow, rfl⟩
    have hcharge : (filled path charge rows).charge = charge := rfl
    simp only [Container.run, Container.upsert, hupsert, Outcome.map, filled_concat, hcharge,
      ItemResponse.ofJson, responded_chargeOf] at hresult hcontainer
    simp only [bind, Except.bind, sent]
    cases hsent : unsent? charge row.document with
    | none =>
      rw [hsent] at hresult
      exact ⟨⟨_, hresult⟩, hcontainer⟩
    | some e =>
      rw [hsent] at hresult
      exact hresult

/-! ## All documents -/

theorem seed_cons (o : Outcome Account Reply) (document : Value) (documents : List Value) :
    seed o (document :: documents) =
      seed (o.andThen fun a _ => a.run (inContainer (Double.zero false) (.upsert document)))
        documents := rfl

theorem result_seed_of_error {e : Failure} (h : o.result = .error e) (documents : List Value) :
    (seed o documents).result = .error e := by
  induction documents generalizing o with
  | nil => exact h
  | cons document documents ih => exact ih (Outcome.result_andThen_of_error h _)

/-- The first document that is not taken, or is not answered, ends the seeding; otherwise the rows of
all documents are stored. -/
theorem Stored.seed (h : Stored path charge rows o) (documents : List Value) :
    match documents.mapM (seededRow (partitionKeyField path) charge) with
    | .error e => (seed o documents).result = .error e
    | .ok more => Stored path charge (rows ++ more) (seed o documents) := by
  induction documents generalizing o rows with
  | nil =>
    rw [List.mapM_nil]
    simpa [pure, Except.pure, seed] using h
  | cons document documents ih =>
    have hnext := h.upsert document
    rw [List.mapM_cons, seed_cons]
    cases hdocument : seededRow (partitionKeyField path) charge document with
    | error e =>
      rw [hdocument] at hnext
      exact result_seed_of_error hnext documents
    | ok row =>
      rw [hdocument] at hnext
      have hrest := ih hnext
      cases hmore : documents.mapM (seededRow (partitionKeyField path) charge) with
      | error e =>
        rw [hmore] at hrest
        exact hrest
      | ok more =>
        rw [hmore] at hrest
        simpa [bind, Except.bind, pure, Except.pure] using hrest

end Cli

/-! ## What the container holds -/

/-- The last row with each storage key, at the place of the first. -/
def lastRows (rows : List Row) : List Row :=
  (rows.map Row.key).eraseDups.filterMap fun key => rows.reverse.find? fun row => row.key = key

namespace Store

theorem rows_foldl_put (s : Store) (rows : List Row) :
    (rows.foldl put s).rows =
      (rows.map fun row => (row.key, row)).foldl (fun entries e => assign e.1 e.2 entries) s.rows := by
  induction rows generalizing s with
  | nil => rfl
  | cons row rows ih =>
    rw [List.foldl_cons, ih]
    rfl

theorem documents_foldl_put (field : String) (rows : List Row) :
    (rows.foldl put (empty field)).documents = (lastRows rows).map Row.document := by
  have hkeys : (rows.map fun row => (row.key, row)).map (·.1) = rows.map Row.key := by
    rw [List.map_map]
    rfl
  have hrows : (rows.foldl put (empty field)).rows =
      assignAll (rows.map fun row => (row.key, row)) := rows_foldl_put _ _
  have hlast : ∀ key, (rows.map fun row => (row.key, row)).reverse.lookup key =
      rows.reverse.find? fun row => row.key = key := by
    intro key
    rw [lookup_eq_find?, ← List.map_reverse, List.find?_map, Option.map_map]
    exact Option.map_id'
  rw [documents, hrows, assignAll_eq_filterMap, hkeys, lastRows, List.map_filterMap,
    List.map_filterMap]
  simp only [hlast, Option.map_map]
  rfl

theorem sound_foldl_put {s : Store} (h : s.Sound) {rows : List Row}
    (hrows : ∀ row ∈ rows, row.Sound s.field) : (rows.foldl put s).Sound := by
  induction rows generalizing s with
  | nil => exact h
  | cons row rows ih =>
    obtain ⟨hrow, hrows⟩ := List.forall_mem_cons.1 hrows
    exact ih (h.put hrow) hrows

end Store

namespace Cli

variable {path : String} {charge : Number} {rows : List Row} {o : Outcome Account Reply}

/-! ## The query -/

/-- The documents with a partition key value, all of them if none is given. -/
def inScope (field : String) : Option Json → List Json → List Json
  | none, documents => documents
  | some key, documents => documents.filter (Ledger.inPartition field key)

/-- The documents that a query is asked about, if the partition key value can be written or there are
none to compare it with. -/
def listing (field : String) (key : Option Json) (documents : List Json) :
    Except Failure (List Json) :=
  if key.all Tree.isWritable || documents.isEmpty then .ok (inScope field key documents)
  else .error (.noText .longInteger)

/-- The reply with the documents found after so many milliseconds. -/
def feedReply (elapsed : Double) (charge : Number) (found : List Json) : Reply :=
  .response (.feed
    { resources := found
      charge := charge.shown
      diagnostics :=
        { duration := .double elapsed
          payloadLength := (Json.text (.arr found)).utf8ByteSize } })

theorem list_filled (hrows : ∀ row ∈ rows, row.Sound (partitionKeyField path)) (key : Option Json) :
    (filled path charge rows).store.list (key.map Tree.ofJson) =
      listing (partitionKeyField path) key ((lastRows rows).map Row.document) := by
  have hsound : (filled path charge rows).store.Sound :=
    Store.sound_foldl_put (Store.sound_empty _) hrows
  have hdocuments : (filled path charge rows).store.documents = (lastRows rows).map Row.document :=
    Store.documents_foldl_put _ rows
  have hasked : (filled path charge rows).store.lists key =
      (key.all Tree.isWritable || ((lastRows rows).map Row.document).isEmpty) := by
    rw [Store.lists, ← hdocuments, Store.documents, List.isEmpty_map]
  rw [listing, ← hasked]
  cases hlists : (filled path charge rows).store.lists key with
  | false =>
    rw [Store.list_of_not_lists hlists]
    rfl
  | true =>
    rw [Store.list_of_lists hlists, if_pos rfl]
    cases key with
    | none => rw [← hdocuments]; rfl
    | some k =>
      rw [Option.elim_some, hsound.inPartition_eq, field_filled, hdocuments]
      rfl

theorem queried_filled (hrows : ∀ row ∈ rows, row.Sound (partitionKeyField path))
    (spec : Query.Spec) (key : Option Json) :
    (filled path charge rows).queried spec.toValue { partitionKey := key.map Tree.ofJson } = (do
      let parsed ← (Query.Parsed.ofSpec spec).mapError .query
      let listed ← listing (partitionKeyField path) key ((lastRows rows).map Row.document)
      (parsed.execute listed).mapError .query) := by
  have hlisted : (filled path charge rows).listed { partitionKey := key.map Tree.ofJson } =
      listing (partitionKeyField path) key ((lastRows rows).map Row.document) := by
    rw [Container.listed, FeedOptions.scope, Store.given_map_ofJson]
    exact list_filled hrows key
  rw [Container.queried, Query.Spec.ofValue_toValue, hlisted]
  rfl

/-- The query is answered from the documents kept; the response is checked last. -/
theorem Stored.query (h : Stored path charge rows o)
    (hrows : ∀ row ∈ rows, row.Sound (partitionKeyField path)) (elapsed : Double)
    (spec : Query.Spec) (key : Option Json) :
    (o.andThen fun a _ => a.run (inContainer elapsed
      (.query spec.toValue (queryOptions (Value.given (key.map Tree.ofJson)))))).result = (do
      let parsed ← (Query.Parsed.ofSpec spec).mapError .query
      let listed ← listing (partitionKeyField path) key ((lastRows rows).map Row.document)
      let found ← (parsed.execute listed).mapError .query
      sent charge (.arr found) (feedReply elapsed charge found)) := by
  obtain ⟨hresult, -⟩ := h.run_action elapsed
    (.query spec.toValue (queryOptions (Value.given (key.map Tree.ofJson))))
  rw [hresult, Container.run, Container.query, FeedOptions.ofValue_queryOptions]
  simp only [queried_filled hrows, bind, Except.bind]
  cases Query.Parsed.ofSpec spec with
  | error e => rfl
  | ok parsed =>
    cases listing (partitionKeyField path) key ((lastRows rows).map Row.document) with
    | error e => rfl
    | ok listed =>
      simp only [Except.mapError]
      cases parsed.execute listed with
      | error e => rfl
      | ok found =>
        have hcharge : (filled path charge rows).charge = charge := rfl
        have harr : (Tree.arr found : Json) ≠ .null := fun h => by cases h
        simp only [Container.feed, Outcome.map, hcharge, FeedResponse.ofJson, responded_chargeOf,
          sent, Json.payloadLength_of_ne_null harr]
        cases unsent? charge (.arr found) <;> rfl

/-! ## The rows of all documents -/

theorem seededRow_eq_ok_iff {field : String} {document : Value} {row : Row} :
    seededRow field charge document = .ok row ↔
      Row.ofValue field document = .ok row ∧ unsent? charge row.document = none := by
  rw [seededRow]
  cases Row.ofValue field document with
  | error e => simp [bind, Except.bind]
  | ok row' =>
    simp only [bind, Except.bind, sent]
    cases hsent : unsent? charge row'.document with
    | none =>
      simp only [Except.ok.injEq]
      constructor
      · rintro rfl
        exact ⟨rfl, hsent⟩
      · exact And.left
    | some e =>
      simp only [Except.ok.injEq, reduceCtorEq, false_iff, not_and]
      rintro rfl
      rw [hsent]
      exact Option.some_ne_none e

theorem forall₂_of_mapM {field : String} {documents : List Value}
    (h : documents.mapM (seededRow field charge) = .ok rows) :
    List.Forall₂ (fun document row => seededRow field charge document = .ok row) documents rows := by
  induction documents generalizing rows with
  | nil =>
    rw [List.mapM_nil] at h
    obtain rfl := Except.ok.inj h
    exact .nil
  | cons document documents ih =>
    rw [List.mapM_cons] at h
    cases hrow : seededRow field charge document with
    | error e => simp [hrow, bind, Except.bind] at h
    | ok row =>
      cases hmore : documents.mapM (seededRow field charge) with
      | error e => simp [hrow, hmore, bind, Except.bind] at h
      | ok more =>
        simp only [hrow, hmore, bind, Except.bind, pure, Except.pure, Except.ok.injEq] at h
        subst h
        exact .cons hrow (ih hmore)

/-- Every row that was stored stands for a document, and is answered. -/
theorem forall_of_mapM {field : String} {documents : List Value}
    (h : documents.mapM (seededRow field charge) = .ok rows) :
    ∀ row ∈ rows, row.Sound field ∧ row.document.isWritable = true := by
  have hall := forall₂_of_mapM h
  clear h
  induction hall with
  | nil => exact List.forall_mem_nil _
  | cons hrow _ ih =>
    obtain ⟨hvalue, hsent⟩ := seededRow_eq_ok_iff.1 hrow
    exact List.forall_mem_cons.2
      ⟨⟨Row.sound_of_ofValue hvalue, (unsent?_eq_none_iff.1 hsent).1⟩, ih⟩

theorem length_lastRows_le (rows : List Row) : (lastRows rows).length ≤ rows.length :=
  calc (lastRows rows).length ≤ (rows.map Row.key).eraseDups.length := List.length_filterMap_le _ _
    _ ≤ (rows.map Row.key).length :=
      ((nodup_eraseDups _).subperm fun _ h => List.mem_eraseDups.1 h).length_le
    _ = rows.length := List.length_map _

theorem mem_of_mem_lastRows {row : Row} (h : row ∈ lastRows rows) : row ∈ rows := by
  obtain ⟨key, -, hfind⟩ := List.mem_filterMap.1 h
  exact List.mem_reverse.1 (List.mem_of_find?_eq_some hfind)

/-- A document that can be written is answered as soon as it is taken, if the charge fits. -/
theorem seededRow_of_isWritable (hfits : charge.fits = true) {document : Value}
    (hdocument : document.isWritable = true) (field : String) :
    seededRow field charge document = Row.ofValue field document := by
  rw [seededRow]
  cases hrow : Row.ofValue field document with
  | error e => rfl
  | ok row =>
    have hwritable : row.document.isWritable = true := by
      rwa [Tree.ofJson_of_toJson? document (Row.toJson?_of_ofValue hrow), Tree.isWritable_ofJson]
        at hdocument
    simp only [bind, Except.bind, sent_of_isWritable hwritable, hfits, if_true]

theorem mapM_seededRow (hfits : charge.fits = true) {documents : List Value}
    (hdocuments : ∀ document ∈ documents, document.isWritable = true) (field : String) :
    documents.mapM (seededRow field charge) = documents.mapM (Row.ofValue field) := by
  induction documents with
  | nil => rfl
  | cons document documents ih =>
    obtain ⟨hdocument, hmore⟩ := List.forall_mem_cons.1 hdocuments
    rw [List.mapM_cons, List.mapM_cons, seededRow_of_isWritable hfits hdocument, ih hmore]

/-! ## Whole runs -/

theorem result_runQuery_eq (elapsed : Double) (documents : List Value) (spec : Query.Spec)
    (path : String) (key : Option Json) (charge : Number) :
    (runQuery elapsed documents spec path (key.map Tree.ofJson) charge).result = (do
      let rows ← documents.mapM (seededRow (partitionKeyField path) charge)
      let parsed ← (Query.Parsed.ofSpec spec).mapError .query
      let listed ← listing (partitionKeyField path) key ((lastRows rows).map Row.document)
      let found ← (parsed.execute listed).mapError .query
      sent charge (.arr found) (feedReply elapsed charge found)) := by
  have hseed := (stored_prepare path charge).seed documents
  rw [runQuery]
  cases hrows : documents.mapM (seededRow (partitionKeyField path) charge) with
  | error e =>
    rw [hrows] at hseed
    exact Outcome.result_andThen_of_error hseed _
  | ok rows =>
    simp only [hrows, List.nil_append] at hseed
    exact hseed.query (fun row hrow => (forall_of_mapM hrows row hrow).1) elapsed spec key

theorem inScope_sublist (field : String) (key : Option Json) (documents : List Json) :
    (inScope field key documents).Sublist documents := by
  cases key with
  | none => exact List.Sublist.refl _
  | some key => exact List.filter_sublist

/-- What a query makes of documents is sent if the charge fits and all can be written. -/
theorem answer_of_isWritable {field : String} {key : Option Json} {kept : List Json}
    (hfits : charge.fits = true) (hkey : ∀ k ∈ key, k.isWritable = true)
    (hkept : ∀ d ∈ kept, d.isWritable = true) (hnumber : kept.length < tenPow Numeral.maxDigits)
    (spec : Query.Spec) (reply : List Json → Reply) :
    (do
      let parsed ← (Query.Parsed.ofSpec spec).mapError Failure.query
      let listed ← listing field key kept
      let found ← (parsed.execute listed).mapError .query
      sent charge (.arr found) (reply found)) = (do
      let found ← (spec.run (inScope field key kept)).mapError .query
      return reply found) := by
  have hsub := inScope_sublist field key kept
  have hasked : key.all Tree.isWritable = true := (Option.all_eq_true _ _).2 hkey
  have hlisting : listing field key kept = .ok (inScope field key kept) := by
    rw [listing, hasked]
    rfl
  rw [hlisting, Query.Spec.run]
  cases Query.Parsed.ofSpec spec with
  | error e => rfl
  | ok parsed =>
    simp only [bind, Except.bind, Except.mapError]
    cases hfound : parsed.execute (inScope field key kept) with
    | error e => rfl
    | ok found =>
      have hwritable := Query.Parsed.isWritable_of_execute hfound
        (fun d hd => hkept d (hsub.subset hd)) (hsub.length_le.trans_lt hnumber)
      simp only [sent_of_isWritable hwritable, hfits, if_true]
      rfl

/-- If the charge fits and the documents, the partition key value and the number of documents can be
written, every response is sent. -/
theorem result_runQuery_of_isWritable {documents : List Value} (hfits : charge.fits = true)
    (hdocuments : ∀ document ∈ documents, document.isWritable = true)
    (hnumber : documents.length < tenPow Numeral.maxDigits) {key : Option Json}
    (hkey : ∀ k ∈ key, k.isWritable = true) (elapsed : Double) (spec : Query.Spec) (path : String) :
    (runQuery elapsed documents spec path (key.map Tree.ofJson) charge).result = (do
      let rows ← documents.mapM (Row.ofValue (partitionKeyField path))
      let kept := (lastRows rows).map Row.document
      let found ← (spec.run (inScope (partitionKeyField path) key kept)).mapError .query
      return feedReply elapsed charge found) := by
  rw [result_runQuery_eq, ← mapM_seededRow hfits hdocuments]
  cases hrows : documents.mapM (seededRow (partitionKeyField path) charge) with
  | error e => rfl
  | ok rows =>
    have hkept : ∀ d ∈ (lastRows rows).map Row.document, d.isWritable = true := by
      intro d hd
      obtain ⟨row, hrow, rfl⟩ := List.mem_map.1 hd
      exact (forall_of_mapM hrows row (mem_of_mem_lastRows hrow)).2
    have hlength : ((lastRows rows).map Row.document).length < tenPow Numeral.maxDigits :=
      calc _ = (lastRows rows).length := List.length_map _
        _ ≤ rows.length := length_lastRows_le rows
        _ = documents.length := (forall₂_of_mapM hrows).length_eq.symm
        _ < tenPow Numeral.maxDigits := hnumber
    exact answer_of_isWritable hfits hkey hkept hlength spec (feedReply elapsed charge)

/-- A run ends with the error of the first document that is not taken or not answered, whatever the
query is.  Otherwise the query is answered from the last documents of all storage keys, within the
partition if a partition key value is given, and the response shows the charge and the bytes of the
list.  If the charge fits and all can be written, the documents that are taken are answered, and so
is the query. -/
theorem result_runQuery (elapsed : Double) (documents : List Value) (spec : Query.Spec)
    (path : String) (key : Option Json) (charge : Number) :
    let field := partitionKeyField path
    let result := (runQuery elapsed documents spec path (key.map Tree.ofJson) charge).result
    (result = do
      let rows ← documents.mapM (seededRow field charge)
      let parsed ← (Query.Parsed.ofSpec spec).mapError .query
      let listed ← listing field key ((lastRows rows).map Row.document)
      let found ← (parsed.execute listed).mapError .query
      sent charge (.arr found) (feedReply elapsed charge found)) ∧
    (charge.fits = true → (∀ document ∈ documents, document.isWritable = true) →
      documents.length < tenPow Numeral.maxDigits → (∀ k ∈ key, k.isWritable = true) →
      result = do
        let rows ← documents.mapM (Row.ofValue field)
        let kept := (lastRows rows).map Row.document
        let found ← (spec.run (inScope field key kept)).mapError .query
        return feedReply elapsed charge found) :=
  ⟨result_runQuery_eq elapsed documents spec path key charge,
    fun hfits hdocuments hnumber hkey =>
      result_runQuery_of_isWritable hfits hdocuments hnumber hkey elapsed spec path⟩

/-- Of two documents with one id in one partition the last is kept, where the first stood. -/
theorem result_runQuery_last :
    let document (id : String) (n : Int) : Json := .obj [("id", .str id), ("n", Tree.int n)]
    let documents : List Value := [document "a" 1, document "b" 2, document "a" 3].map Tree.ofJson
    let spec : Query.Spec := { text := "SELECT * FROM c" }
    let charge : Number := .double Double.one
    (runQuery Double.one documents spec "/id" none charge).result =
      .ok (feedReply Double.one charge [document "a" 3, document "b" 2]) := by
  intro document documents spec charge
  have hdocuments : ∀ document ∈ documents, document.isWritable = true := by decide +kernel
  have hnumber : documents.length < tenPow Numeral.maxDigits := by decide +kernel
  have hrows : documents.mapM (Row.ofValue (partitionKeyField "/id")) =
      .ok [⟨"a", .str "a", document "a" 1⟩, ⟨"b", .str "b", document "b" 2⟩,
        ⟨"a", .str "a", document "a" 3⟩] := by
    rfl
  have hkept : (lastRows [⟨"a", .str "a", document "a" 1⟩, ⟨"b", .str "b", document "b" 2⟩,
      ⟨"a", .str "a", document "a" 3⟩]).map Row.document = [document "a" 3, document "b" 2] := rfl
  have hparse : Query.Statement.parse? "SELECT * FROM c".toList =
      some { shape := .all none, clause := none } := by decide +kernel
  have hspec : Query.Parsed.ofSpec spec = .ok ⟨spec.text, .all none, [], []⟩ := by
    rw [Query.Parsed.ofSpec, hparse]
    rfl
  have hrun : spec.run [document "a" 3, document "b" 2] = .ok [document "a" 3, document "b" 2] := by
    rw [Query.Spec.run, hspec]
    rfl
  have hresult := (result_runQuery Double.one documents spec "/id" none charge).2 rfl hdocuments
    hnumber nofun
  rw [hrows] at hresult
  simp only [bind, Except.bind, hkept, inScope, hrun] at hresult
  exact hresult

/-- A document with a value that cannot be written ends a run, whatever comes after it. -/
theorem result_runQuery_of_not_isWritable {v : Json} (hv : v.isWritable = false)
    (documents : List Value) (spec : Query.Spec) :
    let document : Json := .obj [("id", .str "1"), ("n", v)]
    Row.ofValue "id" (Tree.ofJson document) = .ok ⟨"1", .str "1", document⟩ ∧
    (runQuery Double.one (Tree.ofJson document :: documents) spec "/id" none
      (.double Double.one)).result = .error (.noText .longInteger) := by
  intro document
  have hrow : Row.ofValue "id" (Tree.ofJson document) = .ok ⟨"1", .str "1", document⟩ := by
    rw [Row.ofValue_ofJson_obj]
    rfl
  have hpath : partitionKeyField "/id" = "id" := by decide
  have hlong : document.isWritable = false := by simp [document, hv]
  refine ⟨hrow, ?_⟩
  have hresult := result_runQuery_eq Double.one (Tree.ofJson document :: documents) spec "/id" none
    (.double Double.one)
  rw [hpath, List.mapM_cons, seededRow, hrow] at hresult
  simp only [bind, Except.bind, sent_of_not_isWritable hlong] at hresult
  exact hresult

/-- A document that is taken ends a run if it holds an integer that is too long to be written; the
error of the next document, which has no id, is not met. -/
theorem long_integer_hides_refusal :
    let document : Json := .obj [("id", .str "1"), ("n", Tree.int (tenPow Numeral.maxDigits))]
    let other : Value := .obj [("n", Tree.int 2)]
    Row.ofValue "id" other = .error .noId ∧
    Row.ofValue "id" (Tree.ofJson document) = .ok ⟨"1", .str "1", document⟩ ∧
    (runQuery Double.one [Tree.ofJson document, other] { text := "SELECT * FROM c" } "/id" none
      (.double Double.one)).result = .error (.noText .longInteger) :=
  ⟨rfl, result_runQuery_of_not_isWritable Json.isWritable_tenPow _ _⟩

end Cli

end Pigeonhole
