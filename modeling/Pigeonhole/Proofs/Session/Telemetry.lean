import Pigeonhole.Proofs.Schema.Fields
import Pigeonhole.Proofs.Session.Events

/-!
# One record for each call

A container logs by loggers of its own.  A call adds one record of the logger of calls to that: a
report if the action of the call succeeded, else a complaint (`records_run`).  A report says how large
the response is and what was asked for, by its partition key value and its query text; it holds no
documents and no values of parameters (`perform_leaves_one_record`).
-/

namespace Pigeonhole

/-! ## Responses -/

namespace Response

/-- What a response carries: one resource, or a list of them. -/
def payload : Response → Json
  | item r => r.resource
  | feed r => .arr r.resources

def charge : Response → Double
  | item r => r.charge
  | feed r => r.charge

def diagnostics : Response → Diagnostics
  | item r => r.diagnostics
  | feed r => r.diagnostics

/-- How many resources a feed has. -/
def count? : Response → Option Nat
  | item _ => none
  | feed r => some r.resources.length

/-- Whether a response reports the bytes of what it carries. -/
def Measured (r : Response) : Prop := r.diagnostics.payloadLength = Json.payloadLength r.payload

end Response

/-! ## Actions -/

namespace Container

/-- Whether an operation of a container logs nothing as a call, and reports the bytes of what it
answers with. -/
structure Quiet {α : Type} (wrap : α → Response) (o : Outcome Container α) : Prop where
  logger_ne : ∀ record ∈ o.records, record.logger ≠ Session.callLogger
  measured : ∀ a, o.result = .ok a → (wrap a).Measured

variable {c : Container} {elapsed : Double}

section Quiet

variable {α : Type} {wrap : α → Response}

theorem quiet_failed (e : Failure) : Quiet wrap (.failed c e) where
  logger_ne _ hrecord := absurd hrecord List.not_mem_nil
  measured _ h := by cases h

theorem quiet_responded {o : Outcome Container α} {payload : Json} {response : Double → α}
    (hrecords : ∀ record ∈ o.records, record.logger = clientLogger ∨ record.logger = storeLogger)
    (hresult : o.result = responded payload ((chargeOf c.charge).map response))
    (hmeasured : ∀ charge, (wrap (response charge)).Measured) : Quiet wrap o where
  logger_ne record hrecord := by
    rcases hrecords record hrecord with h | h <;> rw [h] <;> decide
  measured a ha := by
    rw [hresult, responded_chargeOf] at ha
    split at ha
    · obtain rfl := Except.ok.inj ha
      exact hmeasured _
    · cases ha

end Quiet

theorem quiet_upsert (item : Value) : Quiet .item (c.upsert elapsed item) := by
  unfold upsert
  cases c.store.upsert item with
  | error e => exact quiet_failed e
  | ok stored =>
    refine quiet_responded (fun record hrecord => ?_) rfl fun _ => rfl
    obtain rfl := List.mem_singleton.1 hrecord
    exact .inr rfl

theorem quiet_read (address : Address) : Quiet .item (c.read elapsed address) := by
  unfold read
  cases c.store.read address with
  | error e => exact quiet_failed e
  | ok found =>
    cases address.id.display? with
    | error fault => exact quiet_failed _
    | ok shown =>
      refine quiet_responded (fun record hrecord => ?_) rfl fun _ => rfl
      obtain rfl := List.mem_singleton.1 hrecord
      exact .inl rfl

theorem quiet_delete (address : Address) : Quiet .item (c.delete elapsed address) := by
  unfold delete
  cases c.store.delete address with
  | error e => exact quiet_failed e
  | ok removed =>
    refine quiet_responded (fun record hrecord => ?_) rfl fun _ => rfl
    rcases List.mem_pair.1 hrecord with rfl | rfl
    · exact .inr rfl
    · exact .inl rfl

theorem quiet_feed (description : String) (found : Except Failure (List Json)) :
    Quiet .feed (c.feed elapsed description found) := by
  unfold feed
  cases found with
  | error e => exact quiet_failed e
  | ok resources =>
    refine quiet_responded (fun record hrecord => ?_) rfl fun _ => rfl
    obtain rfl := List.mem_singleton.1 hrecord
    exact .inl rfl

theorem quiet_readAll (options : Value) : Quiet .feed (c.readAll elapsed options) := by
  unfold readAll
  cases FeedOptions.ofValue options with
  | error e => exact quiet_failed e
  | ok feed => exact quiet_feed _ _

theorem quiet_query (query options : Value) : Quiet .feed (c.query elapsed query options) := by
  unfold Container.query
  cases FeedOptions.ofValue options with
  | error e => exact quiet_failed e
  | ok feed => exact quiet_feed _ _

/-- A query that is answered could be read. -/
theorem exists_spec_of_query {query options : Value} {r : FeedResponse Empty}
    (h : (c.query elapsed query options).result = .ok r) :
    ∃ spec, Query.Spec.ofValue query = .ok spec := by
  unfold Container.query at h
  cases hoptions : FeedOptions.ofValue options with
  | error e => rw [hoptions] at h; cases h
  | ok feed =>
    rw [hoptions] at h
    cases hspec : Query.Spec.ofValue query with
    | ok spec => exact ⟨spec, rfl⟩
    | error e =>
      have hqueried : c.queried query feed = .error e := by
        simp only [queried, hspec, bind, Except.bind]
      simp only [hqueried, Container.feed] at h
      cases h

end Container

namespace Session

/-! ## What a call is to leave behind -/

/-- The text of a query that is a text or a mapping. -/
def queryText : Value → String
  | .str text => text
  | .obj ms =>
    match ms.lookup "query" with
    | some (.str text) => text
    | _ => ""
  | _ => ""

namespace Call

/-- The word for the action of a call in reports. -/
def word : Call → String
  | getItem _ _ => "READ"
  | getItems _ => "READ_ALL"
  | getIds _ | getCount | query _ _ => "QUERY"
  | upsertItem _ => "UPSERT"
  | deleteItem _ _ => "DELETE"

/-- The tag of a call in complaints. -/
def tag : Call → String
  | getItem _ _ => "GetItem"
  | getItems _ => "GetItemsByPartitionKey"
  | getIds _ | getCount | query _ _ => "Query"
  | upsertItem _ => "UpsertItem"
  | deleteItem _ _ => "DeleteItem"

/-- The partition key value that a call is given, if it is given one. -/
def key? : Call → Option Value
  | getItem _ key | getItems key | getIds key | deleteItem _ key => Value.given (some key)
  | query _ options => optionsKey options
  | getCount | upsertItem _ => none

/-- The text of the query of a call, if it has one. -/
def text? : Call → Option String
  | getIds _ => some "SELECT c.id FROM c"
  | getCount => some "SELECT VALUE COUNT(1) FROM c"
  | query text _ => some (queryText text)
  | getItem _ _ | getItems _ | upsertItem _ | deleteItem _ _ => none

/-- What a call answers with, from the response to its action. -/
def answer : Call → Response → Json
  | getItem _ _, r | getItems _, r | query _ _, r => r.payload
  | getIds _, r => idsOf r.payload
  | getCount, r => firstOf r.payload
  | upsertItem _, _ | deleteItem _ _, _ => .null

/-- Whether a call has no query that is given as a list.  A query may be a list of pairs, but such a
list shows no text. -/
def Stated : Call → Prop
  | query (.arr _) _ => False
  | _ => True

/-- What the report of a call says: the action, where it took place and what it took, the partition
key value if one is given that is not null, the text of a query and the number of resources of a
feed. -/
def context (name : String) (call : Call) (r : Response) : List (String × Value) :=
  [("action", .str call.word), ("container", .str name), ("ru", Tree.double r.charge),
    ("ms", .num r.diagnostics.duration), ("bytes", Tree.int (Json.payloadLength r.payload))] ++
  (match call.key? with
    | none | some .null => []
    | some key => [("pkey", key)]) ++
  (call.text?.toList.map fun text => ("query", .str text)) ++
  (r.count?.toList.map fun (n : Nat) => ("count", Tree.int n))

/-- The report of a call whose action succeeded. -/
def report (name id : String) (call : Call) (r : Response) : Log.Record where
  level := .info
  logger := callLogger
  message := .str (call.word ++ " " ++ name)
  correlation := some (some id)
  context := call.context name r

/-- The complaint of a call whose action failed. -/
def complaint (id : String) (call : Call) (e : Failure) : Log.Record where
  level := .error
  logger := callLogger
  message := .str (call.tag ++ ": " ++ e.text)
  correlation := some (some id)

/-- The record of a call, from the result of its action. -/
def record (name id : String) (call : Call) : Except Failure Response → Log.Record
  | .ok r => call.report name id r
  | .error e => call.complaint id e

end Call

/-! ## Reports -/

theorem given_given (v : Option Value) : Value.given (Value.given v) = Value.given v := by
  by_cases hmissing : v = some (.foreign .missing)
  · subst hmissing
    rfl
  · have hv : Value.given v = v := by
      unfold Value.given
      split
      · contradiction
      · rfl
    rw [hv, hv]

theorem given_optionsKey (options : Value) :
    Value.given (optionsKey options) = optionsKey options := by
  unfold optionsKey
  cases FeedOptions.ofValue options with
  | error e => rfl
  | ok feed => exact given_given _

/-- A query that could be read shows its text. -/
theorem queryText?_eq {query options : Value} {spec : Query.Spec}
    (h : Query.Spec.ofValue query = .ok spec) (hstated : (Call.query query options).Stated) :
    queryText? query = some (.str (queryText query)) := by
  cases query with
  | str text => rfl
  | obj ms =>
    have hcheck : Query.Spec.check ms = .ok spec := by
      simp only [Query.Spec.ofValue, readRequest, Value.toMembers] at h
      cases hms : Query.Spec.check ms with
      | ok read => rw [hms] at h; exact congrArg _ (Except.ok.inj h)
      | issues list => rw [hms] at h; cases h
    obtain ⟨make, parameters, hmake, -, -⟩ := Checked.seq_eq_ok.1 hcheck
    obtain ⟨text, htext, -⟩ := Checked.map_eq_ok.1 hmake
    obtain ⟨v, hlookup, hv⟩ := Field.required_plain_iff.1 htext
    cases v with
    | str s => simp only [queryText?, queryText, hlookup, Option.getD_some]
    | _ => cases hv
  | arr _ => exact hstated.elim
  | null | bool _ | num _ | foreign _ => cases h

/-- Whether telemetry says of a call and the response to its action what their report says. -/
structure Describes (t : Telemetry) (name : String) (call : Call) (r : Response) : Prop where
  action_eq : t.action = call.word
  container_eq : t.container = name
  charge_eq : t.charge = r.charge
  diagnostics_eq : t.diagnostics = r.diagnostics
  measured : r.Measured
  key_eq : Value.given t.partitionKey = call.key?
  query_eq : t.query.map queryText? = call.text?.map (some <| .str ·)
  count_eq : t.count = r.count?

theorem Describes.record_eq {t : Telemetry} {name : String} {call : Call} {r : Response}
    (h : Describes t name call r) (id : String) : t.record id = call.report name id r := by
  obtain ⟨haction, hcontainer, hcharge, hdiagnostics, hmeasured, hkey, hquery, hcount⟩ := h
  have hpkey : (t.shownKey.toList.map fun key => ("pkey", key)) =
      match call.key? with
      | none | some .null => []
      | some key => [("pkey", key)] := by
    rw [Telemetry.shownKey, hkey]
    cases call.key? with
    | none => rfl
    | some key => cases key <;> rfl
  have hcontext : t.context? = some (call.context name r) := by
    rw [Telemetry.context?, Call.context, ← hpkey, haction, hcontainer, hcharge, hdiagnostics,
      hmeasured, hcount]
    cases htext : call.text? with
    | none =>
      rw [htext, Option.map_none, Option.map_eq_none_iff] at hquery
      rw [hquery]
      rfl
    | some text =>
      rw [htext, Option.map_some, Option.map_eq_some_iff] at hquery
      obtain ⟨query, hq, hshown⟩ := hquery
      rw [hq]
      simp only [hshown]
      rfl
  simp only [Telemetry.record, hcontext, haction, hcontainer]
  rfl

/-! ## Calls -/

section Finish

variable {α : Type} {name id tag : String} {o : Outcome Container α} {telemetry : α → Telemetry}
  {wrap : α → Response} {call : Call}

/-- A call adds one record to those of its action. -/
theorem records_finish (answer : α → Json) (htag : tag = call.tag)
    (h : ∀ a, o.result = .ok a → Describes (telemetry a) name call (wrap a)) :
    (finish id tag o answer telemetry).records =
      o.records ++ [call.record name id (o.result.map wrap)] := by
  subst htag
  unfold finish
  cases hresult : o.result with
  | ok a => simp only [(h a hresult).record_eq, Except.map, Call.record]
  | error e => rfl

end Finish

variable {c : Container} {elapsed : Double}

theorem describes_query {query options : Value} {r : FeedResponse Empty} {call : Call}
    (hr : (c.query elapsed query options).result = .ok r)
    (hstated : (Call.query query options).Stated)
    (hword : call.word = "QUERY") (hkey : call.key? = optionsKey options)
    (htext : call.text? = some (queryText query)) (name : String) :
    Describes (feedTelemetry "QUERY" name (optionsKey options) (some query) r) name call (.feed r) where
  action_eq := hword.symm
  container_eq := rfl
  charge_eq := rfl
  diagnostics_eq := rfl
  measured := (Container.quiet_query query options).measured r hr
  key_eq := by rw [hkey]; exact given_optionsKey options
  query_eq := by
    obtain ⟨spec, hspec⟩ := Container.exists_spec_of_query hr
    rw [htext]
    exact congrArg some (queryText?_eq hspec hstated)
  count_eq := rfl

/-- A call logs what its action logs and one record more. -/
theorem records_run (name id : String) (c : Container) (elapsed : Double) {call : Call}
    (h : call.Stated) :
    (run name id c elapsed call).records =
      (c.run elapsed call.action).records ++
        [call.record name id (c.run elapsed call.action).result] := by
  cases call with
  | getItem item key =>
    exact records_finish _ rfl fun r hr =>
      ⟨rfl, rfl, rfl, rfl, (Container.quiet_read _).measured r hr, rfl, rfl, rfl⟩
  | getItems key =>
    exact records_finish _ rfl fun r hr =>
      ⟨rfl, rfl, rfl, rfl, (Container.quiet_readAll _).measured r hr, rfl, rfl, rfl⟩
  | getIds key =>
    exact records_finish _ rfl fun r hr => describes_query hr trivial rfl rfl rfl name
  | getCount =>
    exact records_finish _ rfl fun r hr => describes_query hr trivial rfl rfl rfl name
  | query query options =>
    exact records_finish _ rfl fun r hr => describes_query hr h rfl rfl rfl name
  | upsertItem item =>
    exact records_finish _ rfl fun r hr =>
      ⟨rfl, rfl, rfl, rfl, (Container.quiet_upsert _).measured r hr, rfl, rfl, rfl⟩
  | deleteItem item key =>
    exact records_finish _ rfl fun r hr =>
      ⟨rfl, rfl, rfl, rfl, (Container.quiet_delete _).measured r hr, rfl, rfl, rfl⟩

section Result

variable {α : Type} (id tag : String) (o : Outcome Container α) (telemetry : α → Telemetry)
  {wrap : α → Response} {f : Response → Json}

theorem result_finish_eq {answer : α → Json} (h : ∀ a, f (wrap a) = answer a) :
    (finish id tag o answer telemetry).result = (o.result.map wrap).map f := by
  rw [result_finish]
  cases o.result with
  | ok a => exact congrArg Except.ok (h a).symm
  | error e => rfl

theorem result_mapResult_finish {answer : α → Json} {g : Json → Json}
    (h : ∀ a, f (wrap a) = g (answer a)) :
    (mapResult g (finish id tag o answer telemetry)).result = (o.result.map wrap).map f := by
  rw [mapResult, Outcome.map, result_finish]
  cases o.result with
  | ok a => exact congrArg Except.ok (h a).symm
  | error e => rfl

end Result

/-- A call answers from the response to its action, or fails as the action does. -/
theorem result_run (name id : String) (c : Container) (elapsed : Double) (call : Call) :
    (run name id c elapsed call).result =
      (c.run elapsed call.action).result.map call.answer := by
  cases call with
  | getIds _ | getCount => exact result_mapResult_finish _ _ _ _ fun _ => rfl
  | _ => exact result_finish_eq _ _ _ _ fun _ => rfl

theorem logger_ne_of_mem_run {action : Action} {record : Log.Record}
    (h : record ∈ (c.run elapsed action).records) : record.logger ≠ callLogger := by
  cases action with
  | upsert item => exact (Container.quiet_upsert item).logger_ne record h
  | read address => exact (Container.quiet_read address).logger_ne record h
  | delete address => exact (Container.quiet_delete address).logger_ne record h
  | readAll options => exact (Container.quiet_readAll options).logger_ne record h
  | query query options => exact (Container.quiet_query query options).logger_ne record h

theorem logger_record (name id : String) (call : Call) (result : Except Failure Response) :
    (call.record name id result).logger = callLogger := by
  cases result <;> rfl

/-- Every call leaves exactly one record of the logger of calls, whether its action succeeds or fails:
the report of the response, or the complaint with the tag of the call about the error that the caller
gets too.  It carries the correlation id bound around the call, or else the next new one; what was
bound around the call is bound again afterwards. -/
theorem perform_leaves_one_record (supply : Nat → String) (around : Log.Correlation) (name : String)
    (c : Container) (elapsed : Double) (call : Call) (h : call.Stated) :
    let id := around.current.getD (supply around.made)
    let acted := c.run elapsed call.action
    let performed := perform supply around name c elapsed call
    performed.2.records.filter (·.logger = callLogger) =
        [match acted.result with
          | .ok r => call.report name id r
          | .error e => call.complaint id e] ∧
      performed.2.result = acted.result.map call.answer ∧
      performed.2.state = acted.state ∧
      performed.1.current = around.current := by
  intro id acted performed
  have hperformed : performed.2 = run name id c elapsed call := rfl
  have hrecords : performed.2.records = acted.records ++ [call.record name id acted.result] := by
    rw [hperformed]
    exact records_run name id c elapsed h
  have hothers : acted.records.filter (·.logger = callLogger) = [] := by
    refine List.filter_eq_nil_iff.2 fun record hrecord => ?_
    simpa using logger_ne_of_mem_run hrecord
  refine ⟨?_, result_run name id c elapsed call, state_run name id c elapsed call, rfl⟩
  rw [hrecords, List.filter_append, hothers, List.nil_append,
    List.filter_cons_of_pos (by simpa using logger_record name id call acted.result), List.filter_nil]
  cases acted.result <;> rfl

/-- The report of a query with a parameter in one partition: the value of the parameter is not in it. -/
theorem perform_leaves_one_record_parameter :
    let document : Value := .obj [("id", .str "a"), ("pk", .str "p"), ("n", Tree.int 7)]
    let request : ContainerRequest := { id := "c", partitionKey := { paths := ["/pk"] } }
    let c := after (Container.create request (.double Double.one))
      [.act Double.one (.upsert document)]
    let query : Value := .obj [("query", .str "SELECT c.id FROM c WHERE c.n = @n"),
      ("parameters", .arr [.obj [("name", .str "@n"), ("value", Tree.int 7)]])]
    let call : Call := .query query (partitionOptions (.str "p"))
    call.Stated ∧
      (perform (fun _ => "5a0c") {} "people" c (Double.ofInt 3) call).2.records.filter
          (·.logger = callLogger) =
        [{ level := .info, logger := callLogger, message := .str "QUERY people"
           correlation := some (some "5a0c")
           context := [("action", .str "QUERY"), ("container", .str "people"),
             ("ru", Tree.double Double.one), ("ms", Tree.double (Double.ofInt 3)),
             ("bytes", Tree.int 12), ("pkey", .str "p"),
             ("query", .str "SELECT c.id FROM c WHERE c.n = @n"),
             ("count", Tree.int 1)] }] := by
  intro document request c query call
  have hanswered : (match (c.run (Double.ofInt 3) call.action).result with
      | .ok r => decide (r.charge = Double.one ∧ r.diagnostics.duration = .double (Double.ofInt 3) ∧
        Json.payloadLength r.payload = 12 ∧ r.count? = some 1)
      | .error _ => false) = true := by
    decide +kernel
  obtain ⟨hrecord, -⟩ :=
    perform_leaves_one_record (fun _ => "5a0c") {} "people" c (Double.ofInt 3) call trivial
  refine ⟨trivial, hrecord.trans ?_⟩
  cases hresult : (c.run (Double.ofInt 3) call.action).result with
  | error e => rw [hresult] at hanswered; cases hanswered
  | ok r =>
    rw [hresult] at hanswered
    obtain ⟨hcharge, hduration, hbytes, hcount⟩ := of_decide_eq_true hanswered
    simp only [Call.report, Call.context, hcharge, hduration, hbytes, hcount]
    rfl

end Session

end Pigeonhole
